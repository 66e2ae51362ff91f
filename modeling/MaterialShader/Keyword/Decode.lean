import MaterialShader.Json.Record
import MaterialShader.Keyword.Permutation

/-!
# Keywords in documents

## Main definitions

* `Keyword.ofJson?` — a keyword.
* `Keywords.ofJson?` — a list of keywords.
* `Keywords.firstEmpty?` — the keyword for which a graph is refused.
-/

namespace MaterialShader

/-- A kind by name. -/
def KeywordKind.ofJson? : Json → Option KeywordKind :=
  Json.choice? [("boolean", .boolean), ("enum", .enum)]

/-- A definition by name. -/
def KeywordDefinition.ofJson? : Json → Option KeywordDefinition :=
  Json.choice?
    [("shader_feature", .shaderFeature), ("multi_compile", .multiCompile),
      ("predefined", .predefined)]

/-- A scope by name. -/
def KeywordScope.ofJson? : Json → Option KeywordScope :=
  Json.choice? [("local", .local), ("global", .global)]

/-- An entry of an enum keyword. -/
def KeywordEntry.ofJson? (j : Json) : Option KeywordEntry := do
  let r ← Json.Record.read? ["displayName", "referenceName"] j
  return {
    displayName := ← r.required? "displayName" Json.text?
    referenceName := ← r.required? "referenceName" Json.text? }

/-- A keyword. -/
def Keyword.ofJson? (j : Json) : Option Keyword := do
  let r ← Json.Record.read?
    ["referenceName", "displayName", "kind", "entries", "definition", "scope"] j
  return {
    referenceName := ← r.required? "referenceName" Json.text?
    displayName := ← r.optionalAnywhere? "displayName" Json.text?
    kind := ← r.withDefault? "kind" KeywordKind.ofJson? .boolean
    entries := ← r.withDefault? "entries" (Json.listOf? KeywordEntry.ofJson?) []
    definition := ← r.withDefault? "definition" KeywordDefinition.ofJson? .shaderFeature
    scope := ← r.withDefault? "scope" KeywordScope.ofJson? .local }

namespace Keywords

/-- A list of keywords. -/
def ofJson? : Json → Option Keywords := Json.listOf? Keyword.ofJson?

/-- The first keyword that has nothing to choose from. -/
def firstEmpty? (ks : Keywords) : Option Keyword := ks.find? fun k => !k.hasValues

end Keywords
end MaterialShader
