import MaterialShader.Proofs.KeywordBranch
import MaterialShader.Proofs.LiveNode
import MaterialShader.Proofs.PermutationSymbol
import MaterialShader.Stage.Description

/-!
# The code of a stage in a permutation

The code of a node that is not live everywhere stands behind a guard, which asks for the symbols
of the permutations it is live in.  In a permutation the guards are resolved, and nothing else
is: the choices inside the code of keyword nodes ask for symbols of values, of which nothing is
known then.

## Main definitions

* `knownIn` — what is known of symbols in a permutation.
* `codeRole` — what a step of code is to the preprocessor.
* `Evaluation.codeOf` — the code of the node with an id.
* `Code.IsKept` — the lines of code stay as they are.
* `StandsIn` — how the code of a node stands in the code of its stage.
* `StageNodes.liveIn` — the nodes of a stage that are live in a permutation.

## Main results

* `Operation.isKept_code` — the code of a node is kept.
* `StandsIn.leavesCode`, `StandsIn.yields_writtenLines` — what is left of the code of a node
  and its guard, as steps of a program and as lines of a text.
* `leavesCode_stageCode`, `preprocess_stageCode` — what is left of the code of a stage.
-/

namespace MaterialShader

open Shading (Directive Condition Test Statement)
open Preprocessor
open Writer (lineBody)

/-! ### What is known in a permutation -/

/-- What is known in a permutation: of the symbols of the permutations, its own is defined and
the others are not. -/
def knownIn (count index : Nat) (s : String) : Option Bool :=
  if s ∈ (List.range count).map permutationSymbol then some (s == permutationSymbol index)
  else none

variable {count index : Nat} {indices : List Nat}

theorem knownIn_permutationSymbol {i : Nat} (h : i < count) :
    knownIn count index (permutationSymbol i) =
      some (permutationSymbol i == permutationSymbol index) :=
  if_pos (List.mem_map_of_mem (List.mem_range.mpr h))

theorem knownIn_eq_none {s : String} (h : ∀ i, s ≠ permutationSymbol i) :
    knownIn count index s = none := by
  refine if_neg fun hmem => ?_
  obtain ⟨i, -, hi⟩ := List.mem_map.mp hmem
  exact h i hi.symm

/-- The condition of some permutations has a value where their symbols are known. -/
theorem conditionValue_permutationsCondition_of_known {known : String → Option Bool}
    (hne : indices ≠ [])
    (h : ∀ i ∈ indices, known (permutationSymbol i) = some (decide (i = index))) :
    conditionValue known (permutationsCondition indices) = some (decide (index ∈ indices)) := by
  have htests : conditionTests (permutationsCondition indices) ≠ [] := by
    simpa [conditionTests, permutationsCondition] using hne
  have hknown : ∀ t ∈ conditionTests (permutationsCondition indices),
      known t.symbol = some ((known t.symbol).getD false) := by
    intro t ht
    obtain ⟨i, hi, rfl⟩ := List.mem_map.mp ht
    show known (permutationSymbol i) = some ((known (permutationSymbol i)).getD false)
    rw [h i hi, Option.getD_some]
  have hvalue : conditionValue known (permutationsCondition indices) =
      some ((permutationsCondition indices).holds fun s => (known s).getD false) :=
    conditionValue_eq_holds htests hknown
  rw [hvalue, Option.some_inj, Bool.eq_iff_iff, decide_eq_true_eq]
  simp only [permutationsCondition, Condition.holds, List.any_map, List.any_eq_true]
  constructor
  · rintro ⟨i, hi, hholds⟩
    have heq : i = index := by simpa [Test.holds, Test.defined, h i hi] using hholds
    exact heq ▸ hi
  · intro hindex
    exact ⟨index, hindex, by simp [Test.holds, Test.defined, h index hindex]⟩

theorem conditionValue_permutationsCondition (index : Nat) (hne : indices ≠ [])
    (h : ∀ i ∈ indices, i < count) :
    conditionValue (knownIn count index) (permutationsCondition indices) =
      some (decide (index ∈ indices)) := by
  refine conditionValue_permutationsCondition_of_known hne fun i hi => ?_
  rw [knownIn_permutationSymbol (h i hi), Option.some_inj, Bool.eq_iff_iff, beq_iff_eq,
    decide_eq_true_eq, permutationSymbol_injective.eq_iff]

theorem isReadable_permutationsCondition (hne : indices ≠ []) :
    IsReadable (permutationsCondition indices) := by
  refine ⟨by simpa [conditionTests, permutationsCondition] using hne, fun t ht => ?_⟩
  obtain ⟨i, -, rfl⟩ := List.mem_map.mp ht
  exact isIdentifier_permutationSymbol i

/-- The condition of some permutations, read from its text, has its value. -/
theorem wordsValue_permutationsCondition (index : Nat) (hne : indices ≠ [])
    (h : ∀ i ∈ indices, i < count) :
    wordsValue (knownIn count index) (words (permutationsCondition indices).text.toList) =
      some (decide (index ∈ indices)) := by
  rw [wordsValue_words_text (isReadable_permutationsCondition hne),
    conditionValue_permutationsCondition index hne h]

/-! ### Code that is kept -/

namespace Code

/-- The lines of code stay as they are, whatever stands around them. -/
structure IsKept (known : String → Option Bool) (code : List Code) : Prop where
  /-- No line of it is broken. -/
  isOneLine : ∀ depth, ∀ line ∈ writtenLines depth code, Text.IsOneLine line
  /-- Nothing of it is resolved. -/
  yields : ∀ depth, Yields lineRole (wordsValue known) (writtenLines depth code)
    (writtenLines depth code)

namespace IsKept

variable {known : String → Option Bool} {code rest : List Code}

theorem nil : IsKept known [] where
  isOneLine _ _ h := absurd h List.not_mem_nil
  yields _ := Yields.nil

theorem append (h : IsKept known code) (hrest : IsKept known rest) :
    IsKept known (code ++ rest) where
  isOneLine depth := by
    rw [writtenLines_append]
    exact List.forall_mem_append.mpr ⟨h.isOneLine depth, hrest.isOneLine depth⟩
  yields depth := by
    rw [writtenLines_append]
    exact (h.yields depth).append (hrest.yields depth)

theorem flatMap {ι : Type} {items : List ι} {f : ι → List Code}
    (h : ∀ i ∈ items, IsKept known (f i)) : IsKept known (items.flatMap f) := by
  induction items with
  | nil => exact nil
  | cons i items ih =>
    obtain ⟨hi, hitems⟩ := List.forall_mem_cons.mp h
    rw [List.flatMap_cons]
    exact hi.append (ih hitems)

theorem of_isPlain {s : Statement} (h : s.IsPlain) : IsKept known s.code := by
  obtain ⟨line, hcode, hline, hrole⟩ := h.code_eq
  rw [hcode]
  exact {
    isOneLine := fun depth => List.forall_mem_singleton.mpr (Writer.isOneLine_lineBody hline)
    yields := fun depth => Yields.text (hrole depth) }

end IsKept

end Code

/-- The symbols of keywords are identifiers, and nothing is known of them. -/
def Keywords.AreHidden (ks : Keywords) (known : String → Option Bool) : Prop :=
  ∀ k ∈ ks, k.HasIdentifiers ∧ ∀ v, known (k.valueTest v).symbol = none

/-- In a permutation nothing is known of keywords that have no symbol in common with
permutations. -/
theorem Keywords.areHidden_knownIn {ks : Keywords} (hnames : ∀ k ∈ ks, k.HasIdentifiers)
    (h : ∀ k ∈ ks, ∀ v i, (k.valueTest v).symbol ≠ permutationSymbol i) :
    ks.AreHidden (knownIn count index) :=
  fun k hk => ⟨hnames k hk, fun v => knownIn_eq_none (h k hk v)⟩

namespace Operation

variable {e : Evaluation} {o : Operation} {known : String → Option Bool} {code : List Code}

theorem isKept_keyword (hks : e.keywords.AreHidden known) (hkind : o.kind = .keyword)
    (h : o.code e = .ok code) : Code.IsKept known code := by
  obtain ⟨k, type, value, hk, -, htext, -, rfl⟩ := code_keyword hkind h
  obtain ⟨hnamed, hvalues⟩ := Keywords.named?_of_keyword hk
  obtain ⟨hidentifiers, hhidden⟩ := hks k (Keywords.mem_of_named? hnamed).1
  have hread : ∀ a ∈ o.writtenBranches k type value, ∀ c ∈ directiveCondition? a.1, IsReadable c :=
    isReadable_writtenBranches hidentifiers
  have hchoice : IsChoice ((o.writtenBranches k type value).map Prod.fst) := by
    rw [map_fst_writtenBranches]
    exact Keyword.isChoice_branches hvalues
  have hunknown : ∀ a ∈ o.writtenBranches k type value, ∀ c ∈ directiveCondition? a.1,
      conditionValue known c = none := by
    intro a ha c hc
    obtain ⟨b, hb, rfl⟩ := List.mem_map.mp ha
    obtain ⟨v, rfl⟩ := Keyword.exists_valueTest_of_mem_branches hb hc
    exact conditionValue_eq_none (List.mem_singleton_self _) (hhidden v)
  have hlines : ∀ depth, ∀ a ∈ o.writtenBranches k type value,
      Text.IsOneLine a.2 ∧ lineRole (lineBody depth a.2) = .text :=
    fun depth => writtenBranches_text depth htext
  exact {
    isOneLine := fun depth => isOneLine_writtenLines_choice depth hread fun a ha =>
      (hlines 0 a ha).1
    yields := fun depth => yields_choice_kept depth hchoice hread hunknown fun a ha =>
      (hlines (depth + 1) a ha).2 }

/-- **The code of a node is kept** where nothing is known of the symbols of keywords. -/
theorem isKept_code (hks : e.keywords.AreHidden known) (h : o.code e = .ok code) :
    Code.IsKept known code := by
  by_cases hkind : o.kind = .keyword
  · exact isKept_keyword hks hkind h
  · obtain ⟨statements, hstatements, h⟩ := Outcome.bind_eq_ok_iff.mp h
    obtain rfl := Outcome.pure_eq_ok_iff.mp h
    exact .flatMap fun s hs => .of_isPlain (isPlain_statements hkind hstatements s hs)

end Operation

/-! ### Guards -/

/-- The code of the node with an id. -/
def Evaluation.codeOf (e : Evaluation) (id : String) : Except GenerationError (List Code) := do
  (← e.graph.operation id).code e

/-- The code of a node as it is put into the code of a stage. -/
def stageBody (code : List Code) : List Code :=
  if code.isEmpty then [] else [.lines (Code.fullText 0 code)]

/-- What a step of a program is to the preprocessor. -/
def codeRole : Code → Role Condition
  | .directive d => directiveRole d
  | _ => .text

/-- A program leaves another one where conditions have their values as trees. -/
def LeavesCode (known : String → Option Bool) (program left : List Code) : Prop :=
  Yields codeRole (conditionValue known) program left

variable {e : Evaluation} {n : LiveNode} {known : String → Option Bool} {c : Condition}
  {holds : Bool} {code body left : List Code}

theorem leavesCode_guarded (hvalue : conditionValue known c = some holds)
    (hbody : LeavesCode known body left) :
    LeavesCode known (Code.guarded c body) (if holds then left else []) :=
  yields_single rfl hvalue hbody rfl

theorem yields_writtenLines_guarded (depth : Nat) {left : List String} (hread : IsReadable c)
    (hvalue : conditionValue known c = some holds)
    (hbody : Yields lineRole (wordsValue known) (Code.writtenLines depth body) left) :
    Yields lineRole (wordsValue known) (Code.writtenLines depth (Code.guarded c body))
      (if holds then left else []) := by
  have hlines : Code.writtenLines depth (Code.guarded c body) =
      lineBody depth (Directive.ifTrue c).text :: Code.writtenLines depth body ++
        [lineBody depth Directive.endIf.text] := by
    rw [Code.guarded, Code.writtenLines_append]
    rfl
  rw [hlines]
  refine yields_single (c := words c.text.toList) ?_ ?_ hbody ?_
  · rw [lineRole_directive]
    rfl
  · rw [wordsValue_words_text hread, hvalue]
  · rw [lineRole_directive]
    rfl

/-- How the code of a node stands in the code of its stage: not at all, by itself, or behind a
guard. -/
inductive StandsIn (e : Evaluation) (count index : Nat) (n : LiveNode) :
    List Code → List Code → Prop where
  /-- The node is not live. -/
  | absent (hlive : ¬n.LiveIn index) : StandsIn e count index n [] []
  /-- The node has no code. -/
  | empty (hcode : e.codeOf n.id = .ok []) : StandsIn e count index n [] []
  /-- The node is live, and its code has no guard. -/
  | always {code : List Code} (hcode : e.codeOf n.id = .ok code) (hlive : n.LiveIn index) :
      StandsIn e count index n code (stageBody code)
  /-- The code has a guard, which tells whether the node is live. -/
  | guarded {code : List Code} {indices : List Nat} (hcode : e.codeOf n.id = .ok code)
      (hne : indices ≠ []) (hlt : ∀ i ∈ indices, i < count)
      (hlive : index ∈ indices ↔ n.LiveIn index) :
      StandsIn e count index n code
        (Code.guarded (permutationsCondition indices) (stageBody code))

theorem exists_standsIn {step : List Code} (hn : n.IsSpread count)
    (hindex : count = 0 ∨ index < count) (h : liveNodeCode e count n = .ok step) :
    ∃ code, StandsIn e count index n code step := by
  unfold liveNodeCode at h
  by_cases hlive : n.isLive = true
  · rw [hlive] at h
    obtain ⟨o, ho, h⟩ := Outcome.bind_eq_ok_iff.mp h
    obtain ⟨code, hcode, h⟩ := Outcome.bind_eq_ok_iff.mp h
    have hcodeOf : e.codeOf n.id = .ok code := Outcome.bind_eq_ok_iff.mpr ⟨o, ho, hcode⟩
    cases code with
    | nil =>
      obtain rfl := Outcome.pure_eq_ok_iff.mp h
      exact ⟨[], .empty hcodeOf⟩
    | cons first rest =>
      cases hguard : n.guard? count with
      | none =>
        rw [hguard] at h
        obtain rfl := Outcome.pure_eq_ok_iff.mp h
        exact ⟨_, .always hcodeOf (LiveNode.liveIn_of_guard?_eq_none hn hindex hguard)⟩
      | some indices =>
        rw [hguard] at h
        obtain rfl := Outcome.pure_eq_ok_iff.mp h
        exact ⟨_, .guarded hcodeOf (LiveNode.ne_nil_of_guard? hlive hguard)
          (LiveNode.lt_of_mem_guard? hn hguard) (LiveNode.mem_of_guard?_eq_some hguard)⟩
  · rw [Bool.eq_false_iff.mpr hlive] at h
    obtain rfl := Outcome.pure_eq_ok_iff.mp h
    exact ⟨[], .absent (mt LiveNode.isLive_of_liveIn hlive)⟩

namespace StandsIn

variable {step : List Code}

theorem codeOf_eq (h : StandsIn e count index n code step) (hlive : n.LiveIn index) :
    e.codeOf n.id = .ok code := by
  cases h with
  | absent hnot => exact absurd hlive hnot
  | empty hcode => exact hcode
  | always hcode _ => exact hcode
  | guarded hcode _ _ _ => exact hcode

theorem leavesCode_stageBody (known : String → Option Bool) (code : List Code) :
    LeavesCode known (stageBody code) (stageBody code) := by
  unfold stageBody
  split
  · exact Yields.nil
  · exact Yields.text rfl

/-- Of the code of a node and its guard, the code is left where the node is live. -/
theorem leavesCode (h : StandsIn e count index n code step) :
    LeavesCode (knownIn count index) step (if n.LiveIn index then stageBody code else []) := by
  cases h with
  | absent hnot =>
    rw [if_neg hnot]
    exact Yields.nil
  | empty _ =>
    rw [show stageBody [] = [] from rfl, ite_self]
    exact Yields.nil
  | always _ hlive =>
    rw [if_pos hlive]
    exact leavesCode_stageBody _ code
  | guarded _ hne hlt hlive =>
    have hleaves := leavesCode_guarded (conditionValue_permutationsCondition index hne hlt)
      (leavesCode_stageBody (knownIn count index) code)
    simpa only [decide_eq_true_eq, hlive] using hleaves

/-- The lines of the code of a node do not depend on the text it is put in by. -/
theorem writtenLines_stageBody (depth : Nat)
    (h : ∀ line ∈ Code.writtenLines 0 code, Text.IsOneLine line) :
    Code.writtenLines depth (stageBody code) = Code.writtenLines depth code := by
  unfold stageBody
  split
  · next hempty => rw [List.isEmpty_iff.mp hempty]
  · exact Code.writtenLines_fullText depth h

/-- Of the lines of a node and its guard, the lines of the node are left where it is live. -/
theorem yields_writtenLines (h : StandsIn e count index n code step)
    (hks : e.keywords.AreHidden (knownIn count index)) (depth : Nat) :
    (∀ line ∈ Code.writtenLines depth step, Text.IsOneLine line) ∧
      Yields lineRole (wordsValue (knownIn count index)) (Code.writtenLines depth step)
        (if n.LiveIn index then Code.writtenLines depth code else []) := by
  -- the code of the node stays as it is, so only its guard is resolved
  have hkept : ∀ {code}, e.codeOf n.id = .ok code → Code.IsKept (knownIn count index) code := by
    intro code hcode
    obtain ⟨o, -, hcode⟩ := Outcome.bind_eq_ok_iff.mp hcode
    exact Operation.isKept_code hks hcode
  cases h with
  | absent hnot =>
    rw [if_neg hnot]
    exact ⟨List.forall_mem_nil _, Yields.nil⟩
  | empty _ =>
    rw [show Code.writtenLines depth [] = [] from rfl, ite_self]
    exact ⟨List.forall_mem_nil _, Yields.nil⟩
  | always hcode hlive =>
    rw [if_pos hlive, writtenLines_stageBody depth ((hkept hcode).isOneLine 0)]
    exact ⟨(hkept hcode).isOneLine depth, (hkept hcode).yields depth⟩
  | @guarded _ indices hcode hne hlt hlive =>
    have hbody := (hkept hcode).yields depth
    rw [← writtenLines_stageBody depth ((hkept hcode).isOneLine 0)] at hbody
    have hread := isReadable_permutationsCondition hne
    have hyields := yields_writtenLines_guarded depth hread
      (conditionValue_permutationsCondition index hne hlt) hbody
    refine ⟨fun line hline => ?_, ?_⟩
    · rw [Code.guarded, Code.writtenLines_append, List.mem_append] at hline
      rcases hline with hline | hline
      · rcases List.mem_cons.mp hline with rfl | hline
        · refine Writer.isOneLine_lineBody (isOneLine_directive fun c hc => ?_)
          rw [← Option.some.inj hc]
          exact hread
        · rw [writtenLines_stageBody depth ((hkept hcode).isOneLine 0)] at hline
          exact (hkept hcode).isOneLine depth line hline
      · rw [List.mem_singleton.mp hline]
        exact Writer.isOneLine_lineBody (by decide)
    · rw [writtenLines_stageBody depth ((hkept hcode).isOneLine 0)] at hyields
      simpa only [decide_eq_true_eq, hlive] using hyields

end StandsIn

/-! ### The code of a stage -/

/-- The nodes of a stage that are live in a permutation, in the order of the stage. -/
def StageNodes.liveIn (s : StageNodes) (index : Nat) : List LiveNode :=
  s.nodes.filter fun n => n.LiveIn index

variable {s : StageNodes}

/-- The code of a node, where it can be made. -/
def Evaluation.bodyOf (e : Evaluation) (id : String) : List Code :=
  match e.codeOf id with
  | .ok code => code
  | .error _ => []

theorem StandsIn.eq_bodyOf {step : List Code} (h : StandsIn e count index n code step)
    (hlive : n.LiveIn index) : code = e.bodyOf n.id := by
  rw [Evaluation.bodyOf, h.codeOf_eq hlive]

theorem StageNodes.flatMap_liveIn {α : Type} (s : StageNodes) (f : LiveNode → List α) :
    (s.liveIn index).flatMap f = s.nodes.flatMap fun n => if n.LiveIn index then f n else [] := by
  rw [liveIn]
  induction s.nodes with
  | nil => rfl
  | cons n nodes ih =>
    rw [List.flatMap_cons, ← ih]
    by_cases hlive : n.LiveIn index
    · rw [if_pos hlive, List.filter_cons_of_pos (by simpa using hlive), List.flatMap_cons]
    · rw [if_neg hlive, List.filter_cons_of_neg (by simpa using hlive), List.nil_append]

theorem exists_parts_of_stageCode (hnodes : ∀ n ∈ s.nodes, n.IsSpread count)
    (hindex : count = 0 ∨ index < count) (h : stageCode e s count = .ok code) :
    ∃ parts, code = parts.flatten ∧
      List.Forall₂ (fun n part => ∃ body, StandsIn e count index n body part) s.nodes parts := by
  obtain ⟨parts, hparts, h⟩ := Outcome.bind_eq_ok_iff.mp h
  -- each part belongs to its node, whose permutations are cut out of a range
  have hall := (List.forall₂_and_left _ _).mpr ⟨hnodes, Outcome.mapM_eq_ok_iff.mp hparts⟩
  exact ⟨parts, (Outcome.pure_eq_ok_iff.mp h).symm,
    hall.imp fun n part hpart => exists_standsIn hpart.1 hindex hpart.2⟩

/-- The nodes that are live in a permutation have code. -/
theorem codeOf_of_stageCode (hnodes : ∀ n ∈ s.nodes, n.IsSpread count)
    (hindex : count = 0 ∨ index < count) (h : stageCode e s count = .ok code) :
    ∀ n ∈ s.liveIn index, e.codeOf n.id = .ok (e.bodyOf n.id) := by
  intro n hn
  obtain ⟨hn, hlive⟩ := List.mem_filter.mp hn
  have hlive := of_decide_eq_true hlive
  obtain ⟨parts, -, hparts⟩ := exists_parts_of_stageCode hnodes hindex h
  obtain ⟨i, hi, rfl⟩ := List.mem_iff_getElem.mp hn
  obtain ⟨body, hbody⟩ := List.Forall₂.get hparts hi (hparts.length_eq ▸ hi)
  have hcode := StandsIn.codeOf_eq hbody hlive
  rwa [StandsIn.eq_bodyOf hbody hlive] at hcode

/-- **What is left of the code of a stage** in a permutation is the code of the nodes that are
live in it, in the order of the stage. -/
theorem leavesCode_stageCode (hnodes : ∀ n ∈ s.nodes, n.IsSpread count)
    (hindex : count = 0 ∨ index < count) (h : stageCode e s count = .ok code) :
    LeavesCode (knownIn count index) code
      ((s.liveIn index).flatMap fun n => stageBody (e.bodyOf n.id)) := by
  obtain ⟨parts, rfl, hparts⟩ := exists_parts_of_stageCode hnodes hindex h
  rw [StageNodes.flatMap_liveIn, ← List.flatMap_id]
  refine Yields.flatMap_of_forall₂ (hparts.imp fun n part hpart => ?_)
  obtain ⟨body, hbody⟩ := hpart
  have hleaves := hbody.leavesCode
  by_cases hlive : n.LiveIn index
  · rwa [hbody.eq_bodyOf hlive] at hleaves
  · rwa [if_neg hlive] at hleaves ⊢

/-- The lines of the code of a stage leave the lines of the code of the nodes that are live in
a permutation. -/
theorem preprocess_stageCode (hks : e.keywords.AreHidden (knownIn count index))
    (hnodes : ∀ n ∈ s.nodes, n.IsSpread count) (hindex : count = 0 ∨ index < count)
    (h : stageCode e s count = .ok code) (depth : Nat) :
    preprocess (knownIn count index) (Code.fullText depth code) =
      (s.liveIn index).flatMap fun n => Code.writtenLines depth (e.bodyOf n.id) := by
  obtain ⟨parts, rfl, hparts⟩ := exists_parts_of_stageCode hnodes hindex h
  have hlines : Code.writtenLines depth parts.flatten =
      parts.flatMap (Code.writtenLines depth) := by
    rw [← List.flatMap_id, Code.writtenLines_flatMap]
    rfl
  have honeLine : ∀ line ∈ Code.writtenLines depth parts.flatten, Text.IsOneLine line := by
    rw [hlines]
    intro line hline
    obtain ⟨part, hpart, hline⟩ := List.mem_flatMap.mp hline
    obtain ⟨i, hi, rfl⟩ := List.mem_iff_getElem.mp hpart
    obtain ⟨body, hbody⟩ := List.Forall₂.get hparts (hparts.length_eq ▸ hi) hi
    exact (StandsIn.yields_writtenLines hbody hks depth).1 line hline
  rw [preprocess, Code.bodies_fullText honeLine, hlines, StageNodes.flatMap_liveIn]
  refine Yields.resolve_eq (Yields.flatMap_of_forall₂ (hparts.imp fun n part hpart => ?_))
  obtain ⟨body, hbody⟩ := hpart
  have hyields := (hbody.yields_writtenLines hks depth).2
  by_cases hlive : n.LiveIn index
  · rwa [hbody.eq_bodyOf hlive] at hyields
  · rwa [if_neg hlive] at hyields ⊢

end MaterialShader
