import MaterialShader.Keyword.Permutation
import MaterialShader.Proofs.DirectiveText
import MaterialShader.Shading.Statement

/-!
# Choices in text

The preprocessor makes two choices in the generated code: which permutation symbol is defined,
and which input the variable of a keyword node is read from.  Both are written as branches of
one line each.

## Main definitions

* `Code.choice` — branches of one line each.
* `Preprocessor.directiveValue` — the value of the condition of a branch.
* `Preprocessor.IsChoice` — the directives open branches and continue them.

## Main results

* `Preprocessor.yields_choice` — a choice whose conditions have values leaves the line of the
  first branch whose condition holds.
* `Preprocessor.yields_choice_kept` — a choice whose conditions have no values stays.
* `Preprocessor.preprocess_choice` — what is left of the text of a choice.
-/

namespace MaterialShader

open Shading (Directive Condition Statement)

/-! ### Branches of one line -/

namespace Code

/-- Branches of one line each. -/
def choice (arms : List (Directive × String)) : List Code :=
  arms.flatMap (fun a => [.directive a.1, .nested .indent [.line a.2]]) ++ [.directive .endIf]

open Writer (lineBody)

theorem writtenLines_choice (depth : Nat) (arms : List (Directive × String)) :
    writtenLines depth (choice arms) =
      arms.flatMap (fun a => [lineBody depth a.1.text, lineBody (depth + 1) a.2]) ++
        [lineBody depth Directive.endIf.text] := by
  rw [choice, writtenLines_append, writtenLines_flatMap]
  rfl

end Code

/-- The branches of the permutations, each with the line that defines the symbol. -/
def Keywords.permutationArms (ks : Keywords) : List (Directive × String) :=
  (List.range ks.permutationCount).map fun i =>
    (.branch i (ks.permutationTest i), "#define " ++ permutationSymbol i)

/-- The permutation symbols are defined by a choice. -/
theorem Keywords.permutationSymbols_eq_choice {ks : Keywords} (h : 1 < ks.permutationCount) :
    ks.permutationSymbols = Code.choice ks.permutationArms := by
  rw [permutationSymbols, if_neg (by omega), Code.choice, permutationArms, List.flatMap_map]
  rfl

/-- A variable that is declared in one of several branches is declared by a choice. -/
theorem Shading.Statement.code_select {type : ValueType} {name : String} {arms : List Arm} :
    (Statement.select type name arms).code =
      Code.choice (arms.map fun a => (a.directive, definitionLine type name a.value)) := by
  rw [Statement.code, Code.choice, List.flatMap_map]
  rfl

namespace Preprocessor

open Writer (lineBody)

/-! ### Conditions of branches -/

/-- The condition of a directive, if it has one. -/
def directiveCondition? : Directive → Option Condition
  | .ifTrue c => some c
  | .elseIf c => some c
  | .otherwise => none
  | .endIf => none

/-- The value of the condition of a branch; the branch for all that is left holds. -/
def directiveValue (known : String → Option Bool) (d : Directive) : Option Bool :=
  match directiveCondition? d with
  | some c => conditionValue known c
  | none => some true

/-- The first directive opens branches, and the others continue them. -/
def IsChoice : List Directive → Prop
  | [] => False
  | first :: later =>
      (∃ c, first = .ifTrue c) ∧ ∀ d ∈ later, (∃ c, d = .elseIf c) ∨ d = .otherwise

variable {known : String → Option Bool} {depth : Nat} {arms : List (Directive × String)}

theorem wordsValue_of_directive {d : Directive} {c : Condition}
    (hd : directiveCondition? d = some c) (hread : IsReadable c)
    (hvalue : (directiveValue known d).isSome = true) :
    wordsValue known (words c.text.toList) = some (directiveValue known d == some true) := by
  have hdirective : directiveValue known d = conditionValue known c := by
    rw [directiveValue, hd]
  rw [wordsValue_words_text hread, ← hdirective]
  obtain ⟨b, hb⟩ := Option.isSome_iff_exists.mp hvalue
  rw [hb]
  cases b <;> rfl

/-- Where the defined symbols are known, a condition that can be read has a value. -/
theorem isSome_directiveValue (defined : String → Bool) {d : Directive}
    (hread : ∀ c ∈ directiveCondition? d, IsReadable c) :
    (directiveValue (fun s => some (defined s)) d).isSome = true := by
  cases hcondition : directiveCondition? d with
  | none =>
    rw [directiveValue, hcondition]
    rfl
  | some c =>
    rw [directiveValue, hcondition]
    show (conditionValue (fun s => some (defined s)) c).isSome = true
    rw [conditionValue_eq_holds (hread c hcondition).1 fun _ _ => rfl]
    rfl

section Arms

variable {α κ : Type} {role : α → Role κ} {value : κ → Option Bool} {directive : Directive → α}
  {condition : Condition → κ}

/-- The branch of an arm, in text or in a tree. -/
def Branch.ofArm (known : String → Option Bool) (directive : Directive → α) (line : String → List α)
    (a : Directive × String) : Branch α where
  directive := directive a.1
  holds := directiveValue known a.1 == some true
  lines := line a.2
  left := line a.2

/-- **Branches of directives whose conditions have values** leave the line of the first one whose
condition holds, in whatever form the directives and the lines are held. -/
theorem yields_arms (line : String → List α)
    (hrole : ∀ d, role (directive d) = (directiveRole d).map condition)
    (hchoice : IsChoice (arms.map Prod.fst))
    (hvalue : ∀ a ∈ arms, ∀ c ∈ directiveCondition? a.1,
      value (condition c) = some (directiveValue known a.1 == some true))
    (hline : ∀ a ∈ arms, Yields role value (line a.2) (line a.2)) :
    Yields role value (arms.flatMap (fun a => directive a.1 :: line a.2) ++ [directive .endIf])
      (((arms.find? fun a => directiveValue known a.1 == some true).map
        fun a => line a.2).getD []) := by
  cases arms with
  | nil => exact hchoice.elim
  | cons first later =>
    obtain ⟨⟨c, hopen⟩, hlater⟩ := hchoice
    have hbranches : (first :: later).flatMap (fun a => directive a.1 :: line a.2) =
        (Branch.ofArm known directive line first ::
          later.map (Branch.ofArm known directive line)).flatMap Branch.text := by
      rw [← List.map_cons, List.flatMap_map]
      rfl
    have hchosen : ((first :: later).find? fun a => directiveValue known a.1 == some true).map
        (fun a => line a.2) =
        ((Branch.ofArm known directive line first ::
          later.map (Branch.ofArm known directive line)).find? Branch.holds).map Branch.left := by
      rw [← List.map_cons, List.find?_map, Option.map_map]
      rfl
    rw [hbranches, hchosen]
    -- the first directive opens the group, those of the later arms continue it
    refine yields_resolved (c := condition c) ?_ ?_ ?_ ?_ ?_
    · rw [Branch.ofArm, hrole, hopen]
      rfl
    · exact hvalue first List.mem_cons_self c (by rw [hopen]; rfl)
    · intro b hb
      obtain ⟨a, ha, rfl⟩ := List.mem_map.mp hb
      have hmem : a ∈ first :: later := List.mem_cons_of_mem _ ha
      rcases hlater a.1 (List.mem_map_of_mem ha) with ⟨d, hd⟩ | hd
      · refine Or.inl ⟨condition d, ?_, hvalue a hmem d (by rw [hd]; rfl)⟩
        rw [Branch.ofArm, hrole, hd]
        rfl
      · refine Or.inr ⟨?_, ?_⟩
        · rw [Branch.ofArm, hrole, hd]
          rfl
        · rw [Branch.ofArm, hd]
          rfl
    · intro b hb
      rw [← List.map_cons] at hb
      obtain ⟨a, ha, rfl⟩ := List.mem_map.mp hb
      exact hline a ha
    · rw [hrole]
      rfl

end Arms

/-- **A choice whose conditions have values** leaves the line of the first branch whose
condition holds. -/
theorem yields_choice (depth : Nat) (hchoice : IsChoice (arms.map Prod.fst))
    (hread : ∀ a ∈ arms, ∀ c ∈ directiveCondition? a.1, IsReadable c)
    (hvalue : ∀ a ∈ arms, (directiveValue known a.1).isSome = true)
    (htext : ∀ a ∈ arms, lineRole (lineBody (depth + 1) a.2) = .text) :
    Yields lineRole (wordsValue known) (Code.writtenLines depth (Code.choice arms))
      ((arms.find? fun a => directiveValue known a.1 == some true).map
        fun a => lineBody (depth + 1) a.2).toList := by
  have h : Yields lineRole (wordsValue known) _ _ :=
    yields_arms (fun s => [lineBody (depth + 1) s]) (lineRole_directive depth) hchoice
      (fun a ha c hc => wordsValue_of_directive hc (hread a ha c hc) (hvalue a ha))
      fun a ha => Yields.text (htext a ha)
  have hleft : ∀ a? : Option (Directive × String),
      (a?.map fun a => [lineBody (depth + 1) a.2]).getD [] =
        (a?.map fun a => lineBody (depth + 1) a.2).toList := by
    rintro (_ | a) <;> rfl
  rwa [hleft, ← Code.writtenLines_choice] at h

/-- The later branches of a choice that stays. -/
theorem staysInside_later (known : String → Option Bool) (depth : Nat)
    (hlater : ∀ d ∈ arms.map Prod.fst, (∃ c, d = .elseIf c) ∨ d = .otherwise)
    (htext : ∀ a ∈ arms, lineRole (lineBody (depth + 1) a.2) = .text) :
    StaysInside lineRole (wordsValue known)
      (arms.flatMap fun a => [lineBody depth a.1.text, lineBody (depth + 1) a.2]) := by
  induction arms with
  | nil => exact StaysInside.nil
  | cons a arms ih =>
    rw [List.map_cons] at hlater
    obtain ⟨ha, hlater⟩ := List.forall_mem_cons.mp hlater
    obtain ⟨hline, htext⟩ := List.forall_mem_cons.mp htext
    have hdirective : StaysInside lineRole (wordsValue known) [lineBody depth a.1.text] := by
      apply StaysInside.branch
      rcases ha with ⟨d, hd⟩ | hd
      · exact Or.inl ⟨words d.text.toList, by rw [hd, lineRole_directive]; rfl⟩
      · exact Or.inr (by rw [hd, lineRole_directive]; rfl)
    exact (hdirective.append (StaysInside.of_yields (Yields.text hline))).append (ih hlater htext)

/-- **A choice whose conditions have no values** stays as it is. -/
theorem yields_choice_kept (depth : Nat) (hchoice : IsChoice (arms.map Prod.fst))
    (hread : ∀ a ∈ arms, ∀ c ∈ directiveCondition? a.1, IsReadable c)
    (hvalue : ∀ a ∈ arms, ∀ c ∈ directiveCondition? a.1, conditionValue known c = none)
    (htext : ∀ a ∈ arms, lineRole (lineBody (depth + 1) a.2) = .text) :
    Yields lineRole (wordsValue known) (Code.writtenLines depth (Code.choice arms))
      (Code.writtenLines depth (Code.choice arms)) := by
  cases arms with
  | nil => exact hchoice.elim
  | cons first later =>
    obtain ⟨⟨c, hopen⟩, hlater⟩ := hchoice
    have hfirst : c ∈ directiveCondition? first.1 := by
      rw [hopen]
      rfl
    obtain ⟨hline, hlines⟩ := List.forall_mem_cons.mp htext
    have hinside := (StaysInside.of_yields (Yields.text hline)).append
      (staysInside_later known depth hlater hlines)
    rw [Code.writtenLines_choice]
    refine yields_kept (c := words c.text.toList) ?_ ?_ hinside ?_
    · rw [hopen, lineRole_directive]
      rfl
    · rw [wordsValue_words_text (hread first List.mem_cons_self c hfirst)]
      exact hvalue first List.mem_cons_self c hfirst
    · rw [lineRole_directive]
      rfl

/-! ### Lines of choices -/

theorem isOneLine_directive {d : Directive} (h : ∀ c ∈ directiveCondition? d, IsReadable c) :
    Text.IsOneLine d.text := by
  cases d with
  | ifTrue c => exact Text.isOneLine_append.mpr ⟨by decide, isOneLine_condition (h c rfl)⟩
  | elseIf c => exact Text.isOneLine_append.mpr ⟨by decide, isOneLine_condition (h c rfl)⟩
  | otherwise => decide
  | endIf => decide

theorem isOneLine_writtenLines_choice (depth : Nat)
    (hread : ∀ a ∈ arms, ∀ c ∈ directiveCondition? a.1, IsReadable c)
    (hline : ∀ a ∈ arms, Text.IsOneLine a.2) :
    ∀ line ∈ Code.writtenLines depth (Code.choice arms), Text.IsOneLine line := by
  intro line hmem
  rw [Code.writtenLines_choice, List.mem_append, List.mem_flatMap] at hmem
  rcases hmem with ⟨a, ha, hmem⟩ | hmem
  · rcases List.mem_pair.mp hmem with rfl | rfl
    · exact Writer.isOneLine_lineBody (isOneLine_directive (hread a ha))
    · exact Writer.isOneLine_lineBody (hline a ha)
  · rw [List.mem_singleton.mp hmem]
    exact Writer.isOneLine_lineBody (by decide)

/-- **The line that is left of a choice** where the defined symbols are known: that of the
first branch whose condition holds. -/
theorem preprocess_choice (defined : String → Bool) (depth : Nat)
    (hchoice : IsChoice (arms.map Prod.fst))
    (hread : ∀ a ∈ arms, ∀ c ∈ directiveCondition? a.1, IsReadable c)
    (htext : ∀ a ∈ arms, Text.IsOneLine a.2 ∧ lineRole (lineBody (depth + 1) a.2) = .text) :
    preprocess (fun s => some (defined s)) (Code.fullText depth (Code.choice arms)) =
      ((arms.find? fun a => directiveValue (fun s => some (defined s)) a.1 == some true).map
        fun a => lineBody (depth + 1) a.2).toList := by
  have hvalue : ∀ a ∈ arms, (directiveValue (fun s => some (defined s)) a.1).isSome = true :=
    fun a ha => isSome_directiveValue defined (hread a ha)
  have hlines := isOneLine_writtenLines_choice depth hread fun a ha => (htext a ha).1
  rw [preprocess, Code.bodies_fullText hlines]
  exact (yields_choice depth hchoice hread hvalue fun a ha => (htext a ha).2).resolve_eq

end Preprocessor
end MaterialShader
