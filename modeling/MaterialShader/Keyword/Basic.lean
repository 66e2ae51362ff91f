import MaterialShader.Shading.Directive

/-!
# Keywords

A keyword is a switch that a material sets when it is drawn.  A boolean keyword is
off or on; an enum keyword takes one of its entries.  Each value but "off" is a
preprocessor symbol.  A predefined keyword is set by the pipeline, and the
generator makes no permutations of it.

## Main definitions

* `Keyword` — a keyword of a graph.
* `Keyword.valueCount`, `Keyword.valueSymbol?`, `Keyword.valueTest`,
  `Keyword.branchSocket?` — its values, their symbols, the tests for them, and the
  inputs that a keyword node selects.
* `Keyword.declaration?` — the line that declares it.
-/

namespace MaterialShader

/-- The kind of a keyword. -/
inductive KeywordKind where
  /-- Off or on. -/
  | boolean : KeywordKind
  /-- One of the entries. -/
  | enum : KeywordKind
  deriving DecidableEq, Repr, Inhabited

/-- How a keyword is defined. -/
inductive KeywordDefinition where
  /-- Only the values in use are compiled. -/
  | shaderFeature : KeywordDefinition
  /-- Every value is compiled. -/
  | multiCompile : KeywordDefinition
  /-- The pipeline sets it. -/
  | predefined : KeywordDefinition
  deriving DecidableEq, Repr, Inhabited

/-- The name of a definition in a declaration; predefined keywords have none. -/
def KeywordDefinition.directive? : KeywordDefinition → Option String
  | .shaderFeature => some "shader_feature"
  | .multiCompile => some "multi_compile"
  | .predefined => none

/-- How far a keyword reaches. -/
inductive KeywordScope where
  /-- One shader. -/
  | local : KeywordScope
  /-- All shaders. -/
  | global : KeywordScope
  deriving DecidableEq, Repr, Inhabited

/-- An entry of an enum keyword. -/
structure KeywordEntry where
  /-- The name shown. -/
  displayName : String
  /-- The name in symbols and sockets. -/
  referenceName : String
  deriving DecidableEq, Repr, Inhabited

/-- A keyword of a graph. -/
structure Keyword where
  /-- The name in symbols. -/
  referenceName : String
  /-- The name shown. -/
  displayName : Option String := none
  kind : KeywordKind := .boolean
  /-- The entries of an enum keyword. -/
  entries : List KeywordEntry := []
  /-- How it is defined. -/
  definition : KeywordDefinition := .shaderFeature
  /-- How far it reaches. -/
  scope : KeywordScope := .local
  deriving DecidableEq, Repr, Inhabited

namespace Keyword

open Shading (Test)

/-- An enum keyword without entries has nothing to choose from. -/
def hasValues (k : Keyword) : Bool :=
  match k.kind with
  | .boolean => true
  | .enum => !k.entries.isEmpty

/-- The generator makes permutations of the keyword. -/
def permutes (k : Keyword) : Bool := k.definition != .predefined

/-- The number of values; there is at least one. -/
def valueCount (k : Keyword) : Nat :=
  match k.kind with
  | .boolean => 2
  | .enum => max k.entries.length 1

theorem valueCount_pos (k : Keyword) : 0 < k.valueCount := by
  unfold valueCount
  split
  · decide
  · omega

/-- The symbol of an entry. -/
def entrySymbol (k : Keyword) (e : KeywordEntry) : String :=
  k.referenceName ++ "_" ++ e.referenceName

/-- The symbol that is defined while the keyword has a value; "off" has none. -/
def valueSymbol? (k : Keyword) (value : Nat) : Option String :=
  match k.kind with
  | .boolean => if value = 1 then some k.referenceName else none
  | .enum => k.entries[value]?.map k.entrySymbol

/-- The input that a keyword node passes on while the keyword has a value. -/
def branchSocket? (k : Keyword) (value : Nat) : Option String :=
  match k.kind with
  | .boolean => some (if value = 1 then "On" else "Off")
  | .enum => k.entries[value]?.map (·.referenceName)

/-- The test for a value.  A value without a symbol is tested by the keyword's own
name. -/
def valueTest (k : Keyword) (value : Nat) : Test :=
  match k.kind, k.valueSymbol? value with
  | .boolean, symbol? =>
      if value = 0 then .undefined k.referenceName
      else .defined (symbol?.getD k.referenceName)
  | .enum, symbol? => .defined (symbol?.getD k.referenceName)

/-- The symbols in a declaration; an underscore stands for none. -/
def declaredSymbols (k : Keyword) : String :=
  match k.kind with
  | .boolean => "_ " ++ k.referenceName
  | .enum => " ".intercalate (k.entries.map k.entrySymbol)

/-- The line that declares the keyword.  A keyword without values has none, and a
predefined one is not declared. -/
def declaration? (k : Keyword) : Option String :=
  if !k.hasValues then none
  else
    k.definition.directive?.map fun directive =>
      let scope :=
        match k.scope with
        | .local => "_local"
        | .global => ""
      "#pragma " ++ directive ++ scope ++ " " ++ k.declaredSymbols

end Keyword
end MaterialShader
