import MaterialShader.Code
import MaterialShader.Shading.Expr

/-!
# Statements

The statements that the code of nodes is made of, as trees, and the helper functions
they call.

## Main definitions

* `Operator`, `Helper`, `Helper.code` — helper functions for sums and products.
* `addHelper`, `helpersCode` — the helpers of a shader, each once.
* `Arm`, `Statement`, `Statement.code` — statements and their code.
-/

namespace MaterialShader
namespace Shading

/-! ### Helper functions -/

/-- An operator with a helper function for each type. -/
inductive Operator where
  | add : Operator
  | multiply : Operator
  deriving DecidableEq, Repr, Inhabited

/-- The name of an operator. -/
def Operator.name : Operator → String
  | .add => "Add"
  | .multiply => "Multiply"

/-- The symbol of an operator. -/
def Operator.symbol : Operator → String
  | .add => "+"
  | .multiply => "*"

/-- The operand that changes nothing. -/
def Operator.identity : Operator → Single
  | .add => .ofNat 0
  | .multiply => .ofNat 1

/-- A helper function: an operator for a type. -/
structure Helper where
  operator : Operator
  /-- The type of the operands and of the result. -/
  type : ValueType
  deriving DecidableEq, Repr, Inhabited

/-- The name of a helper function. -/
def Helper.name (h : Helper) : String := "Unity_" ++ h.operator.name ++ "_" ++ h.type.name

/-- The definition of a helper function. -/
def Helper.code (h : Helper) : List Code :=
  let t := h.type.name
  [.line ("void " ++ h.name ++ "(" ++ t ++ " A, " ++ t ++ " B, out " ++ t ++ " Out)"),
    .nested .block [.line ("Out = A " ++ h.operator.symbol ++ " B;")]]

/-- Helpers with one more, unless it is there. -/
def addHelper (helpers : List Helper) (h : Helper) : List Helper :=
  if h ∈ helpers then helpers else helpers ++ [h]

/-- The definitions of helpers, an empty line between them. -/
def helpersCode (helpers : List Helper) : List Code :=
  (helpers.map Helper.code).intersperse [.newline] |>.flatten

/-! ### Statements -/

/-- A branch that gives a variable its value. -/
structure Arm where
  /-- The directive that starts the branch. -/
  directive : Directive
  value : Expr
  deriving DecidableEq, Repr, Inhabited

/-- A statement. -/
inductive Statement where
  /-- Declares a variable with a value. -/
  | define (type : ValueType) (name : String) (value : Expr) : Statement
  /-- Declares a variable without a value. -/
  | declare (type : ValueType) (name : String) : Statement
  /-- Calls a helper function, which sets a variable. -/
  | call (helper : Helper) (left right : Expr) (result : String) : Statement
  /-- Declares a variable in one of several branches. -/
  | select (type : ValueType) (name : String) (arms : List Arm) : Statement
  deriving DecidableEq, Repr, Inhabited

/-- The line that declares a variable with a value. -/
def definitionLine (type : ValueType) (name : String) (value : Expr) : String :=
  type.name ++ " " ++ name ++ " = " ++ value.text ++ ";"

/-- The code of a branch. -/
def Arm.code (type : ValueType) (name : String) (a : Arm) : List Code :=
  [.directive a.directive, .nested .indent [.line (definitionLine type name a.value)]]

/-- The code of a statement. -/
def Statement.code : Statement → List Code
  | .define type name value => [.line (definitionLine type name value)]
  | .declare type name => [.line (type.name ++ " " ++ name ++ ";")]
  | .call helper left right result =>
      [.line (helper.name ++ "(" ++ left.text ++ ", " ++ right.text ++ ", " ++ result ++ ");")]
  | .select type name arms => arms.flatMap (Arm.code type name) ++ [.directive .endIf]

end Shading
end MaterialShader
