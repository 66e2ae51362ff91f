import MaterialShader.Code
import MaterialShader.Keyword.Basic

/-!
# Keyword permutations

A permutation gives every permuting keyword one of its values.  Permutations are
numbered in mixed radix, the first keyword being the most significant digit, so
the number of a permutation does not change while the keywords stay the same.
Permutation `i` is known to the generated code by the symbol
`KEYWORD_PERMUTATION_i`.

## Main definitions

* `Keywords` — the keywords of a graph.
* `Keywords.permutationCount` — how many permutations there are.
* `Keywords.valueIn?` — the value of a keyword in a permutation.
* `Keywords.permutationTest` — the condition that selects a permutation.
* `Keywords.permutationSymbols` — the code that defines the permutation symbols.
* `permutationsCondition` — the condition that one of several permutations is
  selected.
-/

namespace MaterialShader

open Shading (Test Condition Directive)

/-- The keywords of a graph, in order of declaration. -/
abbrev Keywords := List Keyword

namespace Keywords

/-! ### Counting -/

/-- Counts are held in words of 64 bits and stay at the largest one from there on. -/
def maxCount : Nat := Nat.pow 2 64 - 1

/-- The product of two counts. -/
def mulCount (a b : Nat) : Nat := min (a * b) maxCount

/-- The keyword with a reference name; of several the first. -/
def named? (ks : Keywords) (referenceName : String) : Option Keyword :=
  ks.find? fun k => k.referenceName == referenceName

/-- The keywords that permutations are made of. -/
def permuting (ks : Keywords) : List Keyword := ks.filter Keyword.permutes

/-- The number of permutations; without permuting keywords there is one. -/
def permutationCount (ks : Keywords) : Nat :=
  ks.permuting.foldl (fun count k => mulCount count k.valueCount) 1

/-! ### Numbering -/

/-- The digits of a number in mixed radix, least significant first, each beside the
keyword it gives a value to. -/
def digits : List Keyword → Nat → List (Keyword × Nat)
  | [], _ => []
  | k :: rest, n => (k, n % k.valueCount) :: digits rest (n / k.valueCount)

@[simp] theorem digits_nil (n : Nat) : digits [] n = [] := rfl

@[simp] theorem digits_cons (k : Keyword) (rest : List Keyword) (n : Nat) :
    digits (k :: rest) n = (k, n % k.valueCount) :: digits rest (n / k.valueCount) := rfl

/-- The values that a permutation gives to the permuting keywords, in order of
declaration. -/
def valuesIn (ks : Keywords) (index : Nat) : List (Keyword × Nat) :=
  (digits ks.permuting.reverse index).reverse

/-- The value of a keyword in a permutation; of several keywords with the name the
first permuting one counts.  Keywords that are not declared or do not permute have
none. -/
def valueIn? (ks : Keywords) (index : Nat) (referenceName : String) : Option Nat :=
  ((ks.valuesIn index).find? fun v => v.1.referenceName == referenceName).map (·.2)

/-! ### Conditions -/

/-- The tests that select a permutation, one for each permuting keyword. -/
def permutationTests (ks : Keywords) (index : Nat) : List Test :=
  ks.permuting.filterMap fun k => (ks.valueIn? index k.referenceName).map k.valueTest

/-- The condition that selects a permutation. -/
def permutationTest (ks : Keywords) (index : Nat) : Condition := .all (ks.permutationTests index)

end Keywords

/-- The symbol of a permutation. -/
def permutationSymbol (index : Nat) : String := "KEYWORD_PERMUTATION_" ++ toString index

/-- The condition that one of the permutations is selected. -/
def permutationsCondition (indices : List Nat) : Condition :=
  .any (indices.map fun i => .defined (permutationSymbol i))

namespace Keywords

/-! ### Code -/

/-- The lines that declare the keywords. -/
def declarations (ks : Keywords) : List String := ks.filterMap Keyword.declaration?

/-- The branch that defines the symbol of a permutation. -/
def permutationBranch (ks : Keywords) (index : Nat) : List Code :=
  [.directive (.branch index (ks.permutationTest index)),
    .nested .indent [.line ("#define " ++ permutationSymbol index)]]

/-- The code that defines the symbol of the selected permutation; there is none
for a single permutation. -/
def permutationSymbols (ks : Keywords) : List Code :=
  if ks.permutationCount ≤ 1 then []
  else
    (List.range ks.permutationCount).flatMap ks.permutationBranch ++ [.directive .endIf]

end Keywords
end MaterialShader
