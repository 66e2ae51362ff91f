import MaterialShader.Path

/-!
# Errors

The causes for which a shader cannot be generated, and the causes for which a
document cannot be loaded, each with its message.

## Main definitions

* `GenerationError`, `GenerationError.message` — why generation stops.
* `DocumentKind`, `LoadError`, `LoadError.message` — why a document is refused.
-/

namespace MaterialShader

/-- Why generation stops. -/
inductive GenerationError where
  /-- The walk came back to a node whose inputs it was still following. -/
  | cycle (node : String) : GenerationError
  /-- A connection or the caller names a node that is not there. -/
  | missingNode (node : String) : GenerationError
  /-- A node has a type nothing is known about. -/
  | unknownNodeType (node : String) (type : String) : GenerationError
  /-- A keyword node names a keyword that is not declared. -/
  | unknownKeyword (node : String) (keyword : String) : GenerationError
  /-- An enum keyword has no entries to choose from. -/
  | emptyKeyword (keyword : String) : GenerationError
  /-- A template asks for a section that was not generated. -/
  | missingSpliceToken (token : String) (template : Path) : GenerationError
  /-- A template includes a file that is not there. -/
  | includeNotFound (path : Path) (source : Path) : GenerationError
  /-- A template includes a file that is being processed. -/
  | recursiveInclude (path : Path) (source : Path) : GenerationError
  /-- A template or an included file is no text. -/
  | unreadableTemplate (path : Path) : GenerationError
  deriving DecidableEq, Repr, Inhabited

/-- The message of an error. -/
def GenerationError.message : GenerationError → String
  | .cycle node => "cycle detected in material graph at node " ++ node
  | .missingNode node => "material graph references missing node: " ++ node
  | .unknownNodeType node type =>
      "unsupported material node type " ++ type ++ " (node " ++ node ++ ")"
  | .unknownKeyword node keyword =>
      "keyword node " ++ node ++ " references unknown keyword " ++ keyword
  | .emptyKeyword keyword => "enum keyword " ++ keyword ++ " declares no entries"
  | .missingSpliceToken token template =>
      "template " ++ template.text ++ " references splice token \x60" ++ token ++
        "\x60 which has no command"
  | .includeNotFound path source =>
      "include " ++ path.text ++ " (from " ++ source.text ++ ") not found"
  | .recursiveInclude path source =>
      "file " ++ path.text ++ " is recursively included from " ++ source.text
  | .unreadableTemplate path => "failed to read template " ++ path.text

/-- The documents that are loaded. -/
inductive DocumentKind where
  /-- A material graph. -/
  | graph : DocumentKind
  /-- A generator configuration. -/
  | config : DocumentKind
  /-- A target catalog. -/
  | catalog : DocumentKind
  deriving DecidableEq, Repr, Inhabited

/-- What a document of the kind is called when its content is refused. -/
def DocumentKind.contentName : DocumentKind → String
  | .graph => "material graph"
  | .config => "generator config json"
  | .catalog => "target catalog"

/-- Why a document is refused. -/
inductive LoadError where
  /-- Its file cannot be read. -/
  | unreadable (kind : DocumentKind) (path : Path) : LoadError
  /-- Its content has not the form of the kind. -/
  | malformed (kind : DocumentKind) : LoadError
  /-- Its content is refused for a reason generation knows. -/
  | rejected (cause : GenerationError) : LoadError
  /-- The content of its file is refused. -/
  | unparsable (kind : DocumentKind) (path : Path) (cause : Option GenerationError) : LoadError
  deriving DecidableEq, Repr, Inhabited

/-- The message of a load error. -/
def LoadError.message : LoadError → String
  | .unreadable .graph p => "failed to read material graph json at " ++ p.text
  | .unreadable .config p => "failed to read config " ++ p.text
  | .unreadable .catalog p => "failed to read target catalog at " ++ p.text
  | .malformed kind => "invalid " ++ kind.contentName
  | .rejected _ => "invalid " ++ DocumentKind.graph.contentName
  | .unparsable .graph p _ => "failed to parse material graph json at " ++ p.text
  | .unparsable .config p _ => "in " ++ p.text
  | .unparsable .catalog p _ => "failed to parse target catalog at " ++ p.text

/-- The generation error that a document was refused for. -/
def LoadError.cause? : LoadError → Option GenerationError
  | .rejected cause => some cause
  | .unparsable _ _ cause => cause
  | _ => none

/-- The error of a document, said of the file it was read from. -/
def LoadError.inFile (kind : DocumentKind) (path : Path) (e : LoadError) : LoadError :=
  .unparsable kind path e.cause?

end MaterialShader
