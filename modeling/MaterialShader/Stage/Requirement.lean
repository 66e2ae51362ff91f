import MaterialShader.Field.Basic
import MaterialShader.Stage.Basic

/-!
# Requirements

What the code of a node needs from the pipeline: attributes of the mesh, scene
textures, the time.  The requirements of the nodes of a stage are united and become
fields of the stage's inputs.

## Main definitions

* `Space` — the coordinate spaces.
* `Requirements` — what is needed.
* `Requirements.union` — what two of them need together.
* `Requirements.fields`, `Requirements.defines` — the fields and the symbols they
  switch on.
-/

namespace MaterialShader

/-- A coordinate space. -/
inductive Space where
  | object : Space
  | world : Space
  deriving DecidableEq, Repr, Inhabited

/-- What the names of inputs in a space start with. -/
def Space.inputName : Space → String
  | .object => "ObjectSpace"
  | .world => "WorldSpace"

/-- A set of spaces. -/
structure Spaces where
  /-- The space of the object belongs to it. -/
  object : Bool := false
  /-- The space of the world belongs to it. -/
  world : Bool := false
  deriving DecidableEq, Repr, Inhabited

/-- The set of one space. -/
def Spaces.only : Space → Spaces
  | .object => { object := true }
  | .world => { world := true }

/-- The spaces of two sets. -/
def Spaces.union (a b : Spaces) : Spaces := ⟨a.object || b.object, a.world || b.world⟩

/-- The spaces of a set, that of the object first. -/
def Spaces.toList (s : Spaces) : List Space :=
  (if s.object then [.object] else []) ++ (if s.world then [.world] else [])

/-- A set of numbers, in ascending order, with one more. -/
def insertAscending (n : Nat) : List Nat → List Nat
  | [] => [n]
  | m :: rest =>
      if n < m then n :: m :: rest
      else if n = m then m :: rest
      else m :: insertAscending n rest

/-- What is needed from the pipeline. -/
structure Requirements where
  /-- The depth of the scene. -/
  depthTexture : Bool := false
  /-- The colour of the scene. -/
  opaqueTexture : Bool := false
  time : Bool := false
  vertexColor : Bool := false
  screenPosition : Bool := false
  /-- Texture coordinates, by channel in ascending order. -/
  uvChannels : List Nat := []
  position : Spaces := {}
  normal : Spaces := {}
  deriving DecidableEq, Repr, Inhabited

namespace Requirements

/-- Nothing. -/
def none : Requirements := {}

/-- Nothing is needed. -/
def isEmpty (r : Requirements) : Bool := r == none

/-- What two need together. -/
def union (a b : Requirements) : Requirements :=
  { depthTexture := a.depthTexture || b.depthTexture
    opaqueTexture := a.opaqueTexture || b.opaqueTexture
    time := a.time || b.time
    vertexColor := a.vertexColor || b.vertexColor
    screenPosition := a.screenPosition || b.screenPosition
    uvChannels := b.uvChannels.foldl (fun ns n => insertAscending n ns) a.uvChannels
    position := a.position.union b.position
    normal := a.normal.union b.normal }

/-- The input that a texture coordinate is read from. -/
def uvInput (channel : Nat) : String := "uv" ++ toString channel

/-- The input that the position in a space is read from. -/
def positionInput (s : Space) : String := s.inputName ++ "Position"

/-- The input that the normal in a space is read from. -/
def normalInput (s : Space) : String := s.inputName ++ "Normal"

/-- The inputs that are read. -/
def inputs (r : Requirements) : List String :=
  r.position.toList.map positionInput ++ r.normal.toList.map normalInput ++
    r.uvChannels.map uvInput ++
    (if r.vertexColor then ["VertexColor"] else []) ++
    (if r.screenPosition then ["ScreenPosition"] else []) ++
    (if r.time then ["TimeParameters"] else [])

/-- The fields of a stage that are switched on. -/
def fields (r : Requirements) (stage : Stage) : List Field :=
  r.inputs.map (Field.ofTag stage.inputsTag)

/-- The lines that ask the pipeline for scene textures. -/
def defines (r : Requirements) : List String :=
  (if r.depthTexture then ["#define REQUIRE_DEPTH_TEXTURE"] else []) ++
    (if r.opaqueTexture then ["#define REQUIRE_OPAQUE_TEXTURE"] else [])

end Requirements
end MaterialShader
