import MaterialShader.Pass.Interpolator
import MaterialShader.Stage.Description
import MaterialShader.Template.Process

/-!
# The sections of a pass

Everything a template can ask for in a pass, by the names of its tokens.

## Main definitions

* `Material` — what all passes of a shader share.
* `passHelpers` — the helper functions of a pass.
* `passSections` — the sections.
-/

namespace MaterialShader

open Shading (Helper)

/-- What all passes of a shader share. -/
structure Material where
  graph : Graph
  /-- The output the shader is generated for. -/
  output : Operation
  mode : Mode
  /-- The properties of the material. -/
  properties : List Property

namespace Material

/-- The keywords of the graph. -/
def keywords (m : Material) : Keywords := m.graph.keywords

/-- What the code of a stage is made for. -/
def evaluation (m : Material) (stage : Stage) : Evaluation :=
  ⟨m.graph, m.keywords, m.mode, stage⟩

end Material

/-- The helper functions of a pass, those of the vertex stage first. -/
def passHelpers (g : Graph) (f : PassFields) : Except GenerationError (List Helper) := do
  collectHelpers g f.pixel (← collectHelpers g f.vertex [])

/-- The section of a description. -/
def Material.description (m : Material) (p : Pass) (f : PassFields) (stage : Stage) :
    Except GenerationError String :=
  descriptionText (m.evaluation stage) m.output p (f.stage stage) f.active.permutationCount

/-- The lines of the debug section: the active fields, if they are asked for. -/
def debugLines (debug : Bool) (a : ActiveFields) : List String :=
  if debug then a.describe.map fun line => "// " ++ line else []

/-- The sections of a pass. -/
def passSections (m : Material) (p : Pass) (f : PassFields) (debug : Bool) :
    Except GenerationError Sections := do
  let helpers ← passHelpers m.graph f
  let vertex ← m.description p f .vertex
  let pixel ← m.description p f .pixel
  let a := f.active
  return .ofList [
    ("PassName", "Name \"" ++ p.displayName ++ "\""),
    ("LightMode", p.lightModeText),
    ("RenderState", p.renderStateText a),
    ("PassPragmas", p.pragmaText a),
    ("PassKeywords", p.keywordText a),
    ("GraphKeywords", graphKeywordText m.keywords),
    ("PassDefines", p.defineText a),
    ("FieldDefines", fieldDefineSection p.structs a),
    ("ShaderPass", p.shaderPassText),
    ("GraphDefines", graphDefineText f.requirements),
    ("PreGraphIncludes", p.includeText .pregraph a),
    ("PassStructs", structText p.structs a),
    ("InterpolatorPack", packingText p.structs a),
    ("GraphProperties", graphPropertyText m.properties),
    ("InstancedProperties", instancedPropertyText m.properties),
    ("GraphFunctions", codeOrNone (Shading.helpersCode helpers)),
    ("GraphVertex", vertex),
    ("GraphPixel", pixel),
    ("PostGraphIncludes", p.includeText .postgraph a),
    ("Debug", linesOrNone (debugLines debug a))]

end MaterialShader
