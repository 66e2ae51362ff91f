import MaterialShader.CommandLine.Options
import MaterialShader.FilePlace
import MaterialShader.Graph.Decode
import MaterialShader.Shader.Generate
import MaterialShader.Target.Decode
import MaterialShader.Target.Preview
import MaterialShader.Target.Universal

/-!
# Running the command line

A run reads the configuration, the graph and the catalog, in this order, generates
the shader, and prints it or writes it to a file.

## Main definitions

* `Failure`, `Failure.message` — why a run fails.
* `Inputs`, `readInputs` — what a run has read.
* `Product` — what a run results in.
* `run` — the run over a store of files.
* `templatePaths` — the templates a run looks for.
-/

namespace MaterialShader
namespace CommandLine

/-- Why a run fails. -/
inductive Failure where
  /-- A document was refused. -/
  | load (e : LoadError) : Failure
  /-- The graph has no master node and no output was named. -/
  | noMaster : Failure
  /-- The shader of a node cannot be generated. -/
  | generation (node : String) (cause : GenerationError) : Failure
  /-- The shader cannot be written. -/
  | write (path : Path) : Failure
  deriving DecidableEq, Repr, Inhabited

/-- The message of a failure. -/
def Failure.message : Failure → String
  | .load e => e.message
  | .noMaster => "graph has no Master node; pass --output-node"
  | .generation node _ => "failed to generate shader for node " ++ node
  | .write path => "failed to write " ++ path.text

/-- What a run has read. -/
structure Inputs where
  graph : Graph
  catalog : Catalog
  /-- The configuration, options included. -/
  config : Config

/-- A configuration with the options that change it. -/
def configure (o : Options) (c : Config) : Config :=
  let c := (o.templates.map c.movedTo).getD c
  { c with
    variantLimit := o.variantLimit.getD c.variantLimit
    debugOutput := c.debugOutput || o.debug }

/-- The configuration of a run. -/
def readConfig (store : FileStore) (o : Options) : Except LoadError Config := do
  let c ←
    match o.config with
    | some path => Config.load store path
    | none => .ok .default
  return configure o c

/-- The catalog of a run. -/
def readCatalog (store : FileStore) (o : Options) : Except LoadError Catalog :=
  match o.catalog with
  | some path => Catalog.load store path
  | none => .ok Universal.catalog

/-- The documents of a run. -/
def readInputs (store : FileStore) (graph : Path) (o : Options) : Except LoadError Inputs := do
  let config ← readConfig store o
  let graph ← Graph.load store graph
  return ⟨graph, ← readCatalog store o, config⟩

/-- The output of a run: the node that is named, or else the first master node. -/
def outputNode? (g : Graph) (o : Options) : Option String :=
  match o.outputNode with
  | some id => some id
  | none => (g.nodes.find? fun n => n.type == "Master").map (·.id)

/-- What a run results in: the text it prints, and the file it writes. -/
structure Product where
  /-- The text on standard output. -/
  printed : String
  /-- The file and its text. -/
  written : Option (Path × String)
  deriving DecidableEq, Repr, Inhabited

/-- The product for a shader. -/
def Product.ofSource (o : Options) (source : String) : Product :=
  match o.out with
  | some path => ⟨"", some (path, source)⟩
  | none => ⟨source ++ "\n", none⟩

/-- A run over a store of files. -/
def run (store : FileStore) (graph : Path) (o : Options) : Except Failure Product := do
  let inputs ← (readInputs store graph o).mapError .load
  match outputNode? inputs.graph o with
  | none => .error .noMaster
  | some output =>
      let generator : Generator :=
        ⟨inputs.graph, inputs.catalog, Preview.target, inputs.config, store⟩
      let shader ←
        (generator.generate output (if o.preview then .preview else .final)).mapError
          (.generation output)
      return .ofSource o shader.source

/-- The paths of the documents that options name. -/
def documentPaths (graph : Path) (o : Options) : List Path :=
  o.config.toList ++ graph :: o.catalog.toList

/-- The templates that a run looks for. -/
def templatePaths (inputs : Inputs) : List Path :=
  ((Preview.target :: inputs.catalog.targets).flatMap fun t => t.subShader.passes).map fun p =>
    inputs.config.templateRoot.join ⟨p.template⟩

/-- The text that tells the version. -/
def versionText : String := "shadergen 0.1.0\n"

/-- The text that tells how the program is used. -/
def usageText : String :=
  Text.joinLines [
    "Generate ShaderLab/HLSL source from a material graph",
    "",
    "Usage: shadergen [OPTIONS] --graph <GRAPH>",
    "",
    "Options:",
    "      --graph <GRAPH>                  Material graph JSON",
    "      --output-node <OUTPUT_NODE>      Node to generate for",
    "      --preview                        Generate a preview shader",
    "      --catalog <CATALOG>              Target catalog JSON",
    "      --config <CONFIG>                Generator config JSON",
    "      --templates <TEMPLATES>          Template root directory",
    "      --variant-limit <VARIANT_LIMIT>  Maximum number of keyword permutations",
    "      --debug                          Keep inactive lines and list active fields",
    "      --out <OUT>                      Write the shader here instead of stdout",
    "  -h, --help                           Print help",
    "  -V, --version                        Print version"] ++ "\n"

/-- How a command line ends: the exit code, what it prints, its error, and the files
afterwards. -/
structure Ending where
  /-- The exit code. -/
  code : Nat
  /-- The text on standard output. -/
  printed : String
  error : Option String
  store : FileStore

/-- Carries out a request over a store of files. -/
def Request.carryOut (store : FileStore) : Request → Ending
  | .version => ⟨0, versionText, none, store⟩
  | .help => ⟨0, usageText, none, store⟩
  | .misuse => ⟨2, "", none, store⟩
  | .generate graph o =>
      match run store graph o with
      | .error e => ⟨1, "", some e.message, store⟩
      | .ok product =>
          match product.written with
          | none => ⟨0, product.printed, none, store⟩
          | some (path, content) =>
              match store.write? path content with
              | some store => ⟨0, product.printed, none, store⟩
              | none => ⟨1, "", some (Failure.write path).message, store⟩

end CommandLine
end MaterialShader
