import MaterialShader.Field.Basic
import MaterialShader.Path

/-!
# Passes

A pass is one run of the pipeline over the material: which slots of the graph's
output it evaluates, which structs its stages exchange, and the lines that go into
its template, many of them under conditions on fields.

## Main definitions

* `RenderState`, `ConditionalLine`, `Include`, `PassKeyword`, `StructDescriptor` —
  the parts of a pass.
* `Pass` — a pass.
-/

namespace MaterialShader

/-- The kind of a render state. -/
inductive RenderStateKind where
  /-- Which faces are dropped. -/
  | cull : RenderStateKind
  /-- How colours are blended. -/
  | blend : RenderStateKind
  /-- The operation of blending. -/
  | blendOp : RenderStateKind
  /-- Which depths pass. -/
  | zTest : RenderStateKind
  /-- Whether depths are written. -/
  | zWrite : RenderStateKind
  /-- Whether depths are clipped. -/
  | zClip : RenderStateKind
  /-- Which colour channels are written. -/
  | colorMask : RenderStateKind
  /-- Whether opacity becomes coverage. -/
  | alphaToMask : RenderStateKind
  deriving DecidableEq, Repr, Inhabited

/-- The command that sets a render state. -/
def RenderStateKind.command : RenderStateKind → String
  | .cull => "Cull"
  | .blend => "Blend"
  | .blendOp => "BlendOp"
  | .zTest => "ZTest"
  | .zWrite => "ZWrite"
  | .zClip => "ZClip"
  | .colorMask => "ColorMask"
  | .alphaToMask => "AlphaToMask"

/-- A render state under conditions. -/
structure RenderState where
  kind : RenderStateKind
  /-- The value it is set to. -/
  value : String
  /-- When it is set. -/
  conditions : List FieldCondition := []
  deriving DecidableEq, Repr, Inhabited

/-- The line that sets a render state. -/
def RenderState.line (s : RenderState) : String := s.kind.command ++ " " ++ s.value

/-- A pragma or a definition under conditions. -/
structure ConditionalLine where
  /-- What follows the directive. -/
  value : String
  /-- When the line is written. -/
  conditions : List FieldCondition := []
  deriving DecidableEq, Repr, Inhabited

/-- Where an include stands. -/
inductive IncludeLocation where
  /-- Before the code of the graph. -/
  | pregraph : IncludeLocation
  /-- After the code of the graph. -/
  | postgraph : IncludeLocation
  deriving DecidableEq, Repr, Inhabited

/-- An include under conditions. -/
structure Include where
  path : String
  /-- Where it stands. -/
  location : IncludeLocation := .pregraph
  /-- When it is written. -/
  conditions : List FieldCondition := []
  deriving DecidableEq, Repr, Inhabited

/-- A keyword that the pass itself declares, under conditions. -/
structure PassKeyword where
  /-- The whole line. -/
  declaration : String
  /-- When it is written. -/
  conditions : List FieldCondition := []
  deriving DecidableEq, Repr, Inhabited

/-- A struct of the shader, whose members are fields. -/
structure StructDescriptor where
  name : String
  /-- The struct is also passed between stages in a packed form. -/
  packFields : Bool := false
  /-- The members. -/
  fields : List FieldDescriptor := []
  deriving DecidableEq, Repr, Inhabited

/-- A pass. -/
structure Pass where
  /-- The name in code. -/
  referenceName : String := ""
  /-- The name shown. -/
  displayName : String := ""
  /-- The light mode tag. -/
  lightMode : Option String := none
  /-- The template, below the template root. -/
  template : String := ""
  /-- The value of the pass symbol. -/
  shaderPass : Option String := none
  /-- Fields that are always active. -/
  requiredFields : List Field := []
  /-- Dependencies between fields. -/
  fieldDependencies : List FieldDependency := []
  /-- The slots of the output that the vertex stage evaluates. -/
  vertexSlots : List String := []
  /-- The slots of the output that the pixel stage evaluates. -/
  pixelSlots : List String := []
  renderStates : List RenderState := []
  pragmas : List ConditionalLine := []
  includes : List Include := []
  keywords : List PassKeyword := []
  defines : List ConditionalLine := []
  structs : List StructDescriptor := []
  /-- The pass is part of previews. -/
  generatesPreview : Bool := true
  /-- When the pass is generated. -/
  conditions : List FieldCondition := []
  deriving DecidableEq, Repr, Inhabited

/-- The pass is generated while the given fields are active. -/
def Pass.isActive (p : Pass) (fields : List Field) : Bool :=
  FieldCondition.allHold p.conditions fields

end MaterialShader
