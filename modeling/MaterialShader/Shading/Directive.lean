/-!
# Preprocessor directives

Generated code is cut into branches by conditions on preprocessor symbols.

## Main definitions

* `Test`, `Condition` — conditions on symbols, with their text and their value
  under a set of defined symbols.
* `Directive` — the lines that open, continue and close a branch.
-/

namespace MaterialShader
namespace Shading

/-- A test of one symbol. -/
structure Test where
  symbol : String
  /-- The test asks for the symbol to be defined, or to be undefined. -/
  isDefined : Bool
  deriving DecidableEq, Repr, Inhabited

/-- The test that a symbol is defined. -/
def Test.defined (symbol : String) : Test := ⟨symbol, true⟩

/-- The test that a symbol is undefined. -/
def Test.undefined (symbol : String) : Test := ⟨symbol, false⟩

/-- The text of a test. -/
def Test.text (t : Test) : String :=
  (if t.isDefined then "defined(" else "!defined(") ++ t.symbol ++ ")"

/-- A test holds when the symbol is defined exactly if it should be. -/
def Test.holds (t : Test) (defined : String → Bool) : Bool := defined t.symbol == t.isDefined

/-- A condition of a branch. -/
inductive Condition where
  /-- Every test holds. -/
  | all (tests : List Test) : Condition
  /-- One of the tests holds. -/
  | any (tests : List Test) : Condition
  /-- A condition of the pass's own, whose text is kept as it is. -/
  | verbatim (text : String) : Condition
  deriving DecidableEq, Repr, Inhabited

/-- The text of a condition. -/
def Condition.text : Condition → String
  | .all tests => " && ".intercalate (tests.map Test.text)
  | .any tests => " || ".intercalate (tests.map Test.text)
  | .verbatim text => text

/-- The value of a condition; one kept as text counts as true. -/
def Condition.holds (defined : String → Bool) : Condition → Bool
  | .all tests => tests.all (·.holds defined)
  | .any tests => tests.any (·.holds defined)
  | .verbatim _ => true

/-- A line that opens, continues or closes a branch. -/
inductive Directive where
  /-- Opens the branches. -/
  | ifTrue (condition : Condition) : Directive
  /-- Starts the next branch. -/
  | elseIf (condition : Condition) : Directive
  /-- Starts the last branch. -/
  | otherwise : Directive
  /-- Closes the branches. -/
  | endIf : Directive
  deriving DecidableEq, Repr, Inhabited

/-- The text of a directive. -/
def Directive.text : Directive → String
  | .ifTrue c => "#if " ++ c.text
  | .elseIf c => "#elif " ++ c.text
  | .otherwise => "#else"
  | .endIf => "#endif"

/-- The directive of the branch at a position among branches: the first one opens
them. -/
def Directive.branch (position : Nat) (c : Condition) : Directive :=
  if position = 0 then .ifTrue c else .elseIf c

end Shading
end MaterialShader
