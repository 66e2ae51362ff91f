import MaterialShader.Graph.Decode
import MaterialShader.Proofs.DeclaredVariable

/-!
# The variable of a keyword node

The code of a keyword node declares one variable in several branches, and a preprocessor has to
leave one of them, whatever symbols are defined: also where no symbol of the keyword is, or more
than one.  A branch for all that is left sees to that.  A boolean keyword has one, and so has an
enum keyword of several entries, whose last entry it stands for.

An enum keyword of one entry has none, since its only entry is also the first, which opens the
branches.  Where the symbol of that entry is not defined, the variable is not declared.

Symbols are defined or not, whatever their names are, so this is said of code that is still a
tree.  Where the names are identifiers, it holds of the text as well.

## Main definitions

* `Code.leftOf` — what a preprocessor leaves of code that is still a tree.
* `Code.variablesOf` — the variables that the lines of some code declare.

## Main results

* `Code.leftOf_choice` — what is left of branches of one line.
* `Operation.variables_of_keyword` — the variable of a keyword node is declared once, unless no
  branch is taken.
* `exists_keyword_undeclared` — a keyword node whose variable is not declared.
-/

namespace MaterialShader

open Shading (Directive Condition)
open Preprocessor

/-! ### What is left of a choice -/

namespace Code

variable {defined : String → Bool} {arms : List (Directive × String)} {name : String}

/-- What a preprocessor leaves of code that is still a tree, where some symbols are defined. -/
def leftOf (defined : String → Bool) (code : List Code) : List Code :=
  resolve codeRole (conditionValue fun s => some (defined s)) code

/-- The variables that the lines of some code declare. -/
def variablesOf (code : List Code) : List String :=
  (writtenLines 0 code).filterMap declaredVariable?

theorem conditionValue_of_directive {d : Directive} {c : Condition}
    (hd : directiveCondition? d = some c) (hne : conditionTests c ≠ []) :
    conditionValue (fun s => some (defined s)) c =
      some (directiveValue (fun s => some (defined s)) d == some true) := by
  have hvalue : conditionValue (fun s => some (defined s)) c = some (c.holds defined) :=
    conditionValue_eq_holds hne fun _ _ => rfl
  rw [directiveValue, hd]
  simp only [hvalue]
  cases c.holds defined <;> rfl

/-- **What is left of a choice in a tree**: the line of the branch that is taken. -/
theorem leftOf_choice (hchoice : IsChoice (arms.map Prod.fst))
    (htests : ∀ a ∈ arms, ∀ c ∈ directiveCondition? a.1, conditionTests c ≠ []) :
    leftOf defined (choice arms) =
      ((takenArm? defined arms).map fun a => [.nested .indent [.line a.2]]).getD [] := by
  have hrole : ∀ d, codeRole (.directive d) = (directiveRole d).map id := by
    intro d
    cases d <;> rfl
  have h : Yields codeRole (conditionValue fun s => some (defined s)) _ _ :=
    yields_arms (fun s => [.nested .indent [.line s]]) hrole hchoice
      (fun a ha c hc => conditionValue_of_directive hc (htests a ha c hc))
      fun a ha => Yields.text rfl
  exact h.resolve_eq

/-- What a choice among declarations of one variable declares. -/
theorem variables_choice (hchoice : IsChoice (arms.map Prod.fst))
    (htests : ∀ a ∈ arms, ∀ c ∈ directiveCondition? a.1, conditionTests c ≠ [])
    (hname : ∀ a ∈ arms, declaredVariable? a.2 = some name) :
    variablesOf (leftOf defined (choice arms)) =
      if (takenArm? defined arms).isSome then [name] else [] := by
  rw [leftOf_choice hchoice htests]
  cases htaken : takenArm? defined arms with
  | none => rfl
  | some a =>
    have hline := hname a (List.mem_of_find?_eq_some htaken)
    simp [variablesOf, writtenLines, writtenLine, Scope.opening?, Scope.closing?,
      declaredVariable?_lineBody, hline]

end Code

/-! ### The variable of a keyword node -/

namespace Operation

variable {e : Evaluation} {o : Operation} {k : Keyword} {code : List Code}

/-- **The variable of a keyword node is declared once**, whatever symbols are defined, unless the
only entry of an enum keyword has no branch beside it: then it is not declared where the symbol of
the entry is not defined.  This holds of the code as a tree, and of its text if the names of the
keyword are identifiers. -/
theorem variables_of_keyword (hkind : o.kind = .keyword)
    (hk : o.node.keyword e.keywords = .ok k) (hcode : o.code e = .ok code)
    (defined : String → Bool) :
    Code.variablesOf (Code.leftOf defined code) =
        (if k.leavesOpen defined then [] else [o.node.variable "Out"]) ∧
      (k.HasIdentifiers → ∀ depth,
        MaterialShader.declaredVariables defined (Code.fullText depth code) =
          if k.leavesOpen defined then [] else [o.node.variable "Out"]) := by
  refine ⟨?_, fun hidentifiers depth =>
    (declares_keyword_unless hkind hk hidentifiers hcode).declaredVariables_fullText depth⟩
  obtain ⟨-, hvalues⟩ := Keywords.named?_of_keyword hk
  obtain ⟨k', type, value, hk', -, -, -, rfl⟩ := code_keyword hkind hcode
  obtain rfl : k = k' := Except.ok.inj (hk.symm.trans hk')
  have htests : ∀ a ∈ o.writtenBranches k type value,
      ∀ c ∈ directiveCondition? a.1, conditionTests c ≠ [] := by
    intro a ha c hc
    obtain ⟨b, hb, rfl⟩ := List.mem_map.mp ha
    obtain ⟨v, rfl⟩ := Keyword.exists_valueTest_of_mem_branches hb hc
    exact List.cons_ne_nil _ _
  rw [Code.variables_choice (isChoice_writtenBranches hvalues) htests
    declaredVariable?_writtenBranches, isSome_takenArm? hvalues]
  cases k.leavesOpen defined <;> rfl

end Operation

/-- Where no symbol is defined, the last branch of a keyword of three entries is taken. -/
theorem variables_of_keyword_quality :
    ∃ code, Operation.code ⟨qualityGraph, sampleKeywords, .final, .pixel⟩ ⟨qualityNode, .keyword⟩ =
      .ok code ∧
      Code.variablesOf (Code.leftOf (fun _ => false) code) = ["_Keyword_quality_Out"] ∧
      declaredVariables (fun _ => false) (Code.fullText 0 code) = ["_Keyword_quality_Out"] := by
  obtain ⟨code, hcode⟩ : ∃ code, Operation.code ⟨qualityGraph, sampleKeywords, .final, .pixel⟩
      ⟨qualityNode, .keyword⟩ = .ok code := Outcome.exists_of_isOk (by decide +kernel)
  have hk : qualityNode.keyword sampleKeywords = .ok sampleKeywords[2] := by decide +kernel
  obtain ⟨htree, htext⟩ := Operation.variables_of_keyword rfl hk hcode fun _ => false
  have hname : qualityNode.variable "Out" = "_Keyword_quality_Out" := by decide +kernel
  refine ⟨code, hcode, ?_, ?_⟩
  · rw [htree, hname]
    decide
  · rw [htext (by decide +kernel) 0, hname]
    decide

/-! ### A keyword of one entry -/

/-- A keyword node of a keyword that has one entry. -/
def modeNode : Node where
  id := "k"
  type := "Keyword"
  params := [("keyword", .text "_MODE")]
  inputs := [{ id := "A" }]
  outputs := [{ id := "Out" }]

/-- The graph of the node. -/
def modeGraph : Graph where
  version := "1"
  metadata := { name := "Mode" }
  nodes := [modeNode]
  connections := []
  keywords := [{
    referenceName := "_MODE"
    kind := .enum
    entries := [{ displayName := "A", referenceName := "A" }] }]

/-- **The variable of a keyword node need not be declared**: the only entry of its keyword has no
branch beside it, and its symbol is not defined. -/
theorem exists_keyword_undeclared :
    let e : Evaluation := ⟨modeGraph, modeGraph.keywords, .final, .pixel⟩
    modeGraph.checked = .ok modeGraph ∧ ∃ k code, modeNode.keyword e.keywords = .ok k ∧
      k.entries.length = 1 ∧ Operation.code e ⟨modeNode, .keyword⟩ = .ok code ∧
      Code.fullText 0 code =
        "#if defined(_MODE_A)\n    float _Keyword_k_Out = 0;\n#endif\n" ∧
      declaredVariables (fun s => s == "_MODE_A") (Code.fullText 0 code) = ["_Keyword_k_Out"] ∧
      declaredVariables (fun _ => false) (Code.fullText 0 code) = [] := by
  intro e
  obtain ⟨code, hcode, hcheck⟩ : ∃ code, Operation.code e ⟨modeNode, .keyword⟩ = .ok code ∧
      decide (Code.fullText 0 code =
          "#if defined(_MODE_A)\n    float _Keyword_k_Out = 0;\n#endif\n" ∧
        declaredVariables (fun s => s == "_MODE_A") (Code.fullText 0 code) =
          ["_Keyword_k_Out"] ∧
        declaredVariables (fun _ => false) (Code.fullText 0 code) = []) = true :=
    Outcome.exists_of_check (by decide +kernel)
  obtain ⟨htext, hdefined, hundefined⟩ := of_decide_eq_true hcheck
  exact ⟨rfl, modeGraph.keywords[0], code, by decide +kernel, rfl, hcode, htext, hdefined,
    hundefined⟩

end MaterialShader
