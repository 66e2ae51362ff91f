import MaterialShader.Error
import MaterialShader.FileStore
import MaterialShader.Json.Reader
import MaterialShader.Pass.Decode
import MaterialShader.Target.Basic

/-!
# Targets in documents

## Main definitions

* `Target.ofJson?`, `Catalog.ofJson?` — targets and catalogs.
* `Catalog.load` — the catalog in a file, which becomes a dependency of its targets.
-/

namespace MaterialShader

open Json (Record)

/-- A tag. -/
def SubShaderTag.ofJson? (j : Json) : Option SubShaderTag := do
  let r ← Record.read? ["name", "value"] j
  return {
    name := ← r.required? "name" Json.text?
    value := ← r.required? "value" Json.text? }

/-- A subshader. -/
def SubShader.ofJson? (j : Json) : Option SubShader := do
  let r ← Record.read? ["tags", "structs", "fieldDependencies", "passes"] j
  return {
    tags := ← r.withDefault? "tags" (Json.listOf? SubShaderTag.ofJson?) []
    structs := ← r.withDefault? "structs" StructDescriptor.listOfJson? []
    fieldDependencies := ← FieldDependency.listIn? r
    passes := ← r.required? "passes" (Json.listOf? Pass.ofJson?) }

/-- A target. -/
def Target.ofJson? (j : Json) : Option Target := do
  let r ← Record.read? ["name", "dependencies", "subShader"] j
  return {
    name := ← r.required? "name" Json.text?
    dependencies := (← r.withDefault? "dependencies" (Json.listOf? Json.text?) []).map Path.mk
    subShader := ← r.required? "subShader" SubShader.ofJson? }

namespace Catalog

/-- A catalog. -/
def ofJson? (j : Json) : Option Catalog := do
  let r ← Record.read? ["targets"] j
  return { targets := ← r.required? "targets" (Json.listOf? Target.ofJson?) }

/-- The catalog a document holds, or why it is refused. -/
def ofDocument (document : Option Json) : Except LoadError Catalog :=
  match document.bind ofJson? with
  | some c => .ok c
  | none => .error (.malformed .catalog)

/-- The catalog with one more file that every target depends on. -/
def dependingOn (c : Catalog) (path : Path) : Catalog :=
  ⟨c.targets.map fun t => { t with dependencies := path :: t.dependencies }⟩

/-- The catalog in a file. -/
def load (store : FileStore) (path : Path) : Except LoadError Catalog :=
  match store.readText? path with
  | none => .error (.unreadable .catalog path)
  | some text =>
      match ofDocument (Json.read? text) with
      | .ok c => .ok (c.dependingOn path)
      | .error e => .error (e.inFile .catalog path)

end Catalog
end MaterialShader
