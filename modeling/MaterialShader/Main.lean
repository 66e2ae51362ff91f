import MaterialShader.CommandLine.Run

/-!
# The command line program

The program collects the files that a run needs into a store, carries the run out
over that store, and prints or writes what comes of it.  Which files are included is
known only while templates are processed, so a run that misses an include which is
there is repeated with it.
-/

namespace MaterialShader
namespace CommandLine

/-- The store with the file a path leads to, if there is one. -/
def fetch (store : FileStore) (path : Path) : IO FileStore := do
  try
    let bytes ← IO.FS.readBinFile path.text
    return store.insertAt path (.ofBytes bytes)
  catch _ => return store

/-- The store with the documents and templates of a run. -/
def fetchInputs (graph : Path) (o : Options) : IO FileStore := do
  let here ← IO.currentDir
  let names := (Path.mk here.toString).segments.filter fun s => s ≠ ""
  let store ← (documentPaths graph o).foldlM fetch ⟨names, []⟩
  match readInputs store graph o with
  | .error _ => return store
  | .ok inputs => (templatePaths inputs).foldlM fetch store

/-- Runs over a store, which grows by the includes that are missed. -/
partial def runGrowing (store : FileStore) (graph : Path) (o : Options) :
    IO (Except Failure Product) := do
  let result := run store graph o
  match result with
  | .error (.generation _ (.includeNotFound path _)) =>
      let grown ← fetch store path
      if grown.isFile path then runGrowing grown graph o else return result
  | _ => return result

/-- Reports a failure. -/
def fail (message : String) : IO UInt32 := do
  IO.eprintln ("Error: " ++ message)
  return 1

/-- Generates the shader of a graph. -/
def generate (graph : Path) (o : Options) : IO UInt32 := do
  match ← runGrowing (← fetchInputs graph o) graph o with
  | .error e => fail e.message
  | .ok product =>
      match product.written with
      | none =>
          IO.print product.printed
          return 0
      | some (path, content) =>
          try
            IO.FS.writeFile path.text content
            return 0
          catch _ => fail (Failure.write path).message

/-- Carries out a command line. -/
def program (words : List String) : IO UInt32 := do
  match Request.ofWords (← IO.getEnv "SHADERGEN_CONFIG") words with
  | .generate graph o => generate graph o
  | .version =>
      IO.print versionText
      return 0
  | .help =>
      IO.print usageText
      return 0
  | .misuse =>
      IO.eprint usageText
      return 2

end CommandLine
end MaterialShader

/-- The command line program. -/
def main (words : List String) : IO UInt32 := MaterialShader.CommandLine.program words
