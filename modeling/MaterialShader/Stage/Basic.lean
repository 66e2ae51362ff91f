/-!
# Stages and modes

## Main definitions

* `Stage` — the shader stages that evaluate a graph.
* `Mode` — what a shader is generated for.
-/

namespace MaterialShader

/-- A shader stage. -/
inductive Stage where
  | vertex : Stage
  | pixel : Stage
  deriving DecidableEq, Repr, Inhabited

/-- The tag of the fields that are inputs of a stage, which is also the name of
their struct. -/
def Stage.inputsTag : Stage → String
  | .vertex => "VertexDescriptionInputs"
  | .pixel => "SurfaceDescriptionInputs"

/-- The name of the struct that a stage fills in. -/
def Stage.descriptionName : Stage → String
  | .vertex => "VertexDescription"
  | .pixel => "SurfaceDescription"

/-- The variable of that struct. -/
def Stage.descriptionVariable : Stage → String
  | .vertex => "description"
  | .pixel => "surface"

/-- What a shader is generated for. -/
inductive Mode where
  /-- For use. -/
  | final : Mode
  /-- For the preview of a node in the editor. -/
  | preview : Mode
  deriving DecidableEq, Repr, Inhabited

/-- The mode is the preview. -/
def Mode.isPreview (m : Mode) : Bool := m == .preview

end MaterialShader
