import MaterialShader.Error
import MaterialShader.FileStore
import MaterialShader.Json.Reader
import MaterialShader.Json.Record

/-!
# Generator configurations

## Main definitions

* `Config` — a configuration and its defaults.
* `Config.withTemplateRoot` — the defaults with templates below a directory.
* `Config.ofDocument`, `Config.load` — reading a configuration.
-/

namespace MaterialShader

/-- A configuration of the generator. -/
structure Config where
  /-- The directory that templates of passes lie below. -/
  templateRoot : Path := ⟨"templates"⟩
  /-- The directory that included files lie below. -/
  sharedTemplateDir : Path := ⟨"templates/shared"⟩
  /-- The largest number of permutations that is generated. -/
  variantLimit : Nat := 128
  /-- Lines whose field is nowhere active are kept as comments. -/
  debugOutput : Bool := false
  /-- The shader that stands in where this one does not work. -/
  fallbackShader : String := "Hidden/Shader Graph/FallbackError"
  deriving DecidableEq, Repr, Inhabited

namespace Config

/-- The default configuration. -/
def default : Config := {}

/-- The configuration with templates below a directory, and shared ones in a
directory of that. -/
def movedTo (c : Config) (root : Path) : Config :=
  { c with templateRoot := root, sharedTemplateDir := root.join ⟨"shared"⟩ }

/-- The default configuration with templates below a directory. -/
def withTemplateRoot (root : Path) : Config := default.movedTo root

/-- A path of a document. -/
def pathOfJson? (j : Json) : Option Path := j.text?.map Path.mk

/-- A configuration; what it leaves out has its default. -/
def ofJson? (j : Json) : Option Config := do
  let r ← Json.Record.read?
    ["templateRoot", "sharedTemplateDir", "variantLimit", "debugOutput", "fallbackShader"] j
  return {
    templateRoot := ← r.withDefault? "templateRoot" pathOfJson? default.templateRoot
    sharedTemplateDir :=
      ← r.withDefault? "sharedTemplateDir" pathOfJson? default.sharedTemplateDir
    variantLimit := ← r.withDefault? "variantLimit" Json.natural? default.variantLimit
    debugOutput := ← r.withDefault? "debugOutput" Json.bool? default.debugOutput
    fallbackShader := ← r.withDefault? "fallbackShader" Json.text? default.fallbackShader }

/-- The configuration a document holds, or why it is refused. -/
def ofDocument (document : Option Json) : Except LoadError Config :=
  match document.bind ofJson? with
  | some c => .ok c
  | none => .error (.malformed .config)

/-- The configuration in a file. -/
def load (store : FileStore) (path : Path) : Except LoadError Config :=
  match store.readText? path with
  | none => .error (.unreadable .config path)
  | some text => (ofDocument (Json.read? text)).mapError (LoadError.inFile .config path)

end Config
end MaterialShader
