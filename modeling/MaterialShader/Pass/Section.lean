import MaterialShader.Field.Active
import MaterialShader.Keyword.Permutation
import MaterialShader.Pass.Basic
import MaterialShader.Property
import MaterialShader.Stage.Requirement
import MaterialShader.Text.Blank

/-!
# Sections of a pass

The texts that go into the template of a pass.  A line under conditions is written
where they hold: bare if that is everywhere, in a branch if it is in some permutations
only, and not at all if it is nowhere.  A section that turns out blank is replaced by
a placeholder.

## Main definitions

* `orNone`, `linesOrNone`, `codeOrNone` — the text of a section.
* `Code.whereActive` — a line in the permutations it is active in.
* `Pass.renderStateLines`, `Pass.pragmaCode`, … — the sections.
-/

namespace MaterialShader

/-! ### Texts of sections -/

/-- The text of a section in which nothing was written. -/
def nonePlaceholder : String := "// <None>"

/-- A text, or the placeholder where it is blank. -/
def orNone (text : String) : String := if Text.isAllBlank text then nonePlaceholder else text

/-- Lines as a section. -/
def linesOrNone (lines : List String) : String := orNone (Text.joinLines lines)

/-- Code as a section. -/
def codeOrNone (code : List Code) : String := orNone (Code.text code)

/-- A line in the permutations it is active in. -/
def Code.whereActive (a : Activity) (line : String) : List Code :=
  match a with
  | .always => [.line line]
  | .permutations indices => Code.guarded (permutationsCondition indices) [.line line]
  | .never => []

/-- The code of lines under conditions. -/
def conditionalCode (a : ActiveFields) (lines : List (List FieldCondition × String)) :
    List Code :=
  lines.flatMap fun l => Code.whereActive (a.conditionActivity l.1) l.2

namespace Pass

/-! ### Lines of the pass -/

/-- Render states, of each kind the first whose conditions hold in the base; `seen`
are the kinds that are set already. -/
def renderStatesFrom (base : List Field) (seen : List RenderStateKind) :
    List RenderState → List RenderState
  | [] => []
  | s :: rest =>
      if s.kind ∉ seen ∧ FieldCondition.allHold s.conditions base then
        s :: renderStatesFrom base (s.kind :: seen) rest
      else renderStatesFrom base seen rest

/-- The section of render states. -/
def renderStateText (p : Pass) (a : ActiveFields) : String :=
  linesOrNone ((renderStatesFrom a.base [] p.renderStates).map RenderState.line)

/-- The code of pragmas. -/
def pragmaCode (p : Pass) (a : ActiveFields) : List Code :=
  conditionalCode a (p.pragmas.map fun l => (l.conditions, "#pragma " ++ l.value))

/-- The code of definitions. -/
def defineCode (p : Pass) (a : ActiveFields) : List Code :=
  conditionalCode a (p.defines.map fun l => (l.conditions, "#define " ++ l.value))

/-- The code of the includes at a location. -/
def includeCode (p : Pass) (location : IncludeLocation) (a : ActiveFields) : List Code :=
  conditionalCode a
    ((p.includes.filter fun i => i.location == location).map fun i =>
      (i.conditions, "#include \"" ++ i.path ++ "\""))

/-- The code of the keywords that the pass declares. -/
def keywordCode (p : Pass) (a : ActiveFields) : List Code :=
  conditionalCode a (p.keywords.map fun k => (k.conditions, k.declaration))

/-- The section of pragmas. -/
def pragmaText (p : Pass) (a : ActiveFields) : String := codeOrNone (p.pragmaCode a)

/-- The section of definitions. -/
def defineText (p : Pass) (a : ActiveFields) : String := codeOrNone (p.defineCode a)

/-- The section of includes at a location. -/
def includeText (p : Pass) (location : IncludeLocation) (a : ActiveFields) : String :=
  codeOrNone (p.includeCode location a)

/-- The section of the keywords of the pass. -/
def keywordText (p : Pass) (a : ActiveFields) : String := codeOrNone (p.keywordCode a)

/-- The section of the pass symbol. -/
def shaderPassText (p : Pass) : String :=
  orNone ((p.shaderPass.map fun s => "#define SHADERPASS " ++ s).getD "")

/-- The section of the light mode. -/
def lightModeText (p : Pass) : String :=
  orNone ((p.lightMode.map fun m => "Tags \x7b \"LightMode\" = \"" ++ m ++ "\" \x7d").getD "")

end Pass

/-! ### Lines of the graph -/

/-- The features that define a symbol while they are active. -/
def definingFeatures : List Field := [.graphVertex, .graphPixel, .isPreview]

/-- The code that defines the symbols of features. -/
def featureCode (a : ActiveFields) : List Code :=
  definingFeatures.flatMap fun f =>
    match f.featureSymbol? with
    | some symbol => Code.whereActive (a.activity f) ("#define " ++ symbol)
    | none => []

/-- The lines that define the symbols of features. -/
def featureLines (a : ActiveFields) : List String := Text.bodies (Code.text (featureCode a))

/-- The code that declares the keywords of a graph and defines the permutation
symbols. -/
def graphKeywordCode (ks : Keywords) : List Code :=
  Code.ofLines ks.declarations ++ ks.permutationSymbols

/-- The section of the keywords of a graph. -/
def graphKeywordText (ks : Keywords) : String := codeOrNone (graphKeywordCode ks)

/-- The section that asks for scene textures. -/
def graphDefineText (r : Requirements) : String := linesOrNone r.defines

/-- The section of material properties. -/
def graphPropertyText (properties : List Property) : String :=
  linesOrNone (materialDeclarations properties)

/-- The section of properties held once per instance. -/
def instancedPropertyText (properties : List Property) : String :=
  linesOrNone (instancedDeclarations properties)

end MaterialShader
