import MaterialShader.Shader.Config
import MaterialShader.Shader.Sections
import MaterialShader.Target.Basic

/-!
# Generating a shader

A shader is a property block, a subshader for each target with the processed
templates of its passes, and the name of a fallback.  A graph with more permutations
than allowed gets the property block and the fallback alone.

## Main definitions

* `Diagnostic`, `GeneratedShader` — what generation results in.
* `Generator` — what generation depends on.
* `Generator.passText` — the text of one pass.
* `Generator.generate` — the shader.
-/

namespace MaterialShader

/-! ### Results -/

/-- What a diagnostic is about. -/
inductive DiagnosticKind where
  /-- There are more permutations than allowed. -/
  | variantLimitExceeded : DiagnosticKind
  /-- Something cannot be used as it was asked for. -/
  | validation : DiagnosticKind
  deriving DecidableEq, Repr, Inhabited

/-- How grave a diagnostic is. -/
inductive Severity where
  /-- The shader works. -/
  | warning : Severity
  /-- The shader was replaced. -/
  | error : Severity
  deriving DecidableEq, Repr, Inhabited

/-- A message to the user. -/
structure Diagnostic where
  /-- What it is about. -/
  kind : DiagnosticKind
  /-- How grave it is. -/
  severity : Severity
  /-- The node it is about. -/
  node : Option String
  message : String
  deriving DecidableEq, Repr, Inhabited

/-- A generated shader. -/
structure GeneratedShader where
  /-- The text. -/
  source : String
  /-- The textures it binds. -/
  textures : List TextureInfo
  /-- The files it depends on. -/
  dependencies : List Path
  /-- Messages to the user. -/
  diagnostics : List Diagnostic
  deriving DecidableEq, Repr, Inhabited

/-- The message that there are too many permutations. -/
def Diagnostic.tooManyVariants (count limit : Nat) : Diagnostic :=
  { kind := .variantLimitExceeded
    severity := .error
    node := none
    message :=
      "Graph is generating too many variants (" ++ toString count ++ ", limit " ++
        toString limit ++ "). Either delete keywords, reduce keyword variants or " ++
        "increase the variant limit." }

/-- The message that there is no target for the graph. -/
def Diagnostic.noTarget (output : String) : Diagnostic :=
  { kind := .validation
    severity := .warning
    node := some output
    message := "no target accepts this graph" }

/-! ### Generation -/

/-- What generation depends on. -/
structure Generator where
  graph : Graph
  /-- The targets for the master node. -/
  catalog : Catalog
  /-- The target for any other output. -/
  preview : Target
  /-- The configuration. -/
  config : Config
  store : FileLookup

/-- The properties behind nodes, in order. -/
def collectProperties (g : Graph) (mode : Mode) (ids : List String) :
    Except GenerationError (List Property) :=
  ids.foldlM (fun properties id => do return (← g.operation id).collectProperty mode properties) []

namespace Generator

/-- The pass is part of the shader: previews leave out some, and its conditions have
to hold of the fields it starts with. -/
def includesPass (m : Material) (p : Pass) : Bool :=
  (!m.mode.isPreview || p.generatesPreview) &&
    p.isActive (addFields [] (seedFields m.output p m.mode))

/-- What the template of a pass is processed with. -/
def templateContext (s : Generator) (sections : Sections) (a : ActiveFields) :
    Template.Context :=
  { store := s.store
    sharedDir := s.config.sharedTemplateDir
    sections := sections
    active := a
    debug := s.config.debugOutput }

/-- The processed template of a pass; a pass that is left out or has no template
results in nothing. -/
def passText (s : Generator) (m : Material) (p : Pass) :
    Except GenerationError (Option Template.Progress) :=
  if !includesPass m p then .ok none
  else do
    let f ← passFields m.graph m.output.node.id p m.mode m.keywords
    let sections ← passSections m p f s.config.debugOutput
    processTemplate (s.templateContext sections f.active)
      (s.config.templateRoot.join ⟨p.template⟩)

/-- The code of the property block. -/
def propertyCode (properties : List Property) : List Code :=
  [.line "Properties", .nested .block (Code.ofLines (propertyBlock properties))]

/-- The code of a subshader whose passes have the given texts. -/
def subShaderCode (s : SubShader) (passes : List Template.Progress) : List Code :=
  [.line "SubShader",
    .nested .block (Code.ofLines s.tagsLine?.toList ++ passes.map fun p => .lines p.text)]

/-- The text of a shader with the given subshaders. -/
def shaderText (s : Generator) (properties : List Property) (subShaders : List Code) : String :=
  Code.text
    [.line ("Shader \"" ++ s.graph.shaderPath ++ "\""),
      .nested .block
        (propertyCode properties ++ subShaders ++
          [.line ("FallBack \"" ++ s.config.fallbackShader ++ "\"")])]

/-- The passes of a subshader that are part of the shader. -/
def subShaderPasses (s : Generator) (m : Material) (sub : SubShader) :
    Except GenerationError (List Template.Progress) := do
  return (← sub.passes.mapM (s.passText m)).filterMap id

/-- The shader for a graph with too many permutations. -/
def limitedShader (s : Generator) (properties : List Property) : GeneratedShader :=
  { source := s.shaderText properties []
    textures := textures properties
    dependencies := []
    diagnostics :=
      [.tooManyVariants s.graph.keywords.permutationCount s.config.variantLimit] }

/-- The shader with the subshaders of all targets. -/
def fullShader (s : Generator) (m : Material) : Except GenerationError GeneratedShader := do
  let targets := s.catalog.targetsFor s.preview s.graph m.output.isMaster
  let subShaders := targets.map fun t => t.subShader.resolved
  let passes ← subShaders.mapM (s.subShaderPasses m)
  return {
    source := s.shaderText m.properties
      ((subShaders.zip passes).flatMap fun p => subShaderCode p.1 p.2)
    textures := textures m.properties
    dependencies :=
      targets.flatMap (·.dependencies) ++ passes.flatten.flatMap (·.dependencies)
    diagnostics := if targets.isEmpty then [.noTarget m.output.node.id] else [] }

/-- The shader for an output of the graph. -/
def generate (s : Generator) (output : String) (mode : Mode) :
    Except GenerationError GeneratedShader := do
  -- what the walk fails with comes before all other errors
  let ids ← s.graph.evaluationOrder output
  let o ← s.graph.operation output
  let properties ← collectProperties s.graph mode ids
  if s.config.variantLimit < s.graph.keywords.permutationCount then
    return s.limitedShader properties
  else s.fullShader ⟨s.graph, o, mode, properties⟩

end Generator
end MaterialShader
