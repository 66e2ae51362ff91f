import MaterialShader.Proofs.InputText
import MaterialShader.Proofs.ResolvedCode

/-!
# Branches for permutations

A directive of the generated text may ask for symbols of permutations.  Which permutations these
are can be read back from the line.  Code that asks for none of them stays as it is, whatever
permutation it is resolved for.

A guard that a document gives a member may have any form.  It is told apart from the guards of
permutations by the names in it, since a condition only tests symbols that its text mentions.

## Main definitions

* `Text.Mentions` — a name stands in a text as a whole word.
* `branchIndices?` — the permutations that a directive asks for.
* `Code.IsBranchFree` — code that asks for no permutation.

## Main results

* `mentions_of_alternatives?` — a condition mentions the symbols that it tests.
* `branchIndices?_branch` — the permutations of a generated directive are read back.
-/

namespace MaterialShader

open Shading (Directive Condition Test)
open Preprocessor
open Writer (lineBody)

/-! ### Names in a text -/

/-- A name stands in a text as a whole word. -/
def Text.Mentions (text name : String) : Prop := name.toList ∈ Text.pieces text.toList

instance (text name : String) : Decidable (Text.Mentions text name) :=
  inferInstanceAs (Decidable (_ ∈ _))

theorem infix_intercalate_of_mem {α : Type} {separator part : List α} {parts : List (List α)}
    (h : part ∈ parts) : part <:+: separator.intercalate parts := by
  induction parts with
  | nil => exact absurd h List.not_mem_nil
  | cons first rest ih =>
    cases rest with
    | nil =>
      rw [List.mem_singleton.mp h]
      simp
    | cons next rest =>
      rw [List.intercalate_cons_cons]
      rcases List.mem_cons.mp h with rfl | h
      · rw [List.append_assoc]
        exact (List.prefix_append _ _).isInfix
      · exact (ih h).trans (List.suffix_append _ _).isInfix

/-- What a list is split into are parts of it. -/
theorem infix_of_mem_splitOn {α : Type} [BEq α] [LawfulBEq α] {x : α} {part l : List α}
    (h : part ∈ l.splitOn x) : part <:+: l := by
  have hinfix : part <:+: [x].intercalate (l.splitOn x) := infix_intercalate_of_mem h
  rwa [List.intercalate_splitOn] at hinfix

theorem exists_of_mapM_option {α β : Type} {f : α → Option β} {l : List α} {r : List β}
    (h : l.mapM f = some r) : ∀ b ∈ r, ∃ a ∈ l, f a = some b := by
  induction l generalizing r with
  | nil =>
    obtain rfl : [] = r := Option.some.inj h
    exact List.forall_mem_nil _
  | cons a l ih =>
    rw [List.mapM_cons] at h
    obtain ⟨b, hb, h⟩ := Option.bind_eq_some_iff.mp h
    obtain ⟨bs, hbs, h⟩ := Option.bind_eq_some_iff.mp h
    obtain rfl : b :: bs = r := Option.some.inj h
    refine List.forall_mem_cons.mpr ⟨⟨a, List.mem_cons_self, hb⟩, fun c hc => ?_⟩
    obtain ⟨d, hd, hfd⟩ := ih hbs c hc
    exact ⟨d, List.mem_cons_of_mem a hd, hfd⟩

theorem ne_nil_of_mapM_option {α β : Type} {f : α → Option β} {l : List α} {r : List β}
    (h : l.mapM f = some r) (hne : l ≠ []) : r ≠ [] := by
  obtain ⟨a, l, rfl⟩ := List.exists_cons_of_ne_nil hne
  rw [List.mapM_cons] at h
  obtain ⟨b, -, h⟩ := Option.bind_eq_some_iff.mp h
  obtain ⟨bs, -, h⟩ := Option.bind_eq_some_iff.mp h
  rw [← Option.some.inj h]
  exact List.cons_ne_nil _ _

/-! ### The symbols of a condition -/

theorem definedSymbol?_eq_some {w : List Char} {symbol : String}
    (h : definedSymbol? w = some symbol) :
    w = "defined(".toList ++ symbol.toList ++ [')'] ∧ Text.isIdentifier symbol = true := by
  simp only [definedSymbol?] at h
  split at h
  · next hw =>
    obtain rfl := Option.some.inj h
    have hchars : (String.ofList (w.drop 8).dropLast).toList = (w.drop 8).dropLast :=
      String.toList_ofList
    rw [hchars]
    exact hw
  · exact absurd h (by simp)

/-- The word of a test is its symbol in parentheses behind another word. -/
theorem exists_of_testOfWord? {w : List Char} {t : Test} (h : testOfWord? w = some t) :
    Text.isIdentifier t.symbol = true ∧ ∃ before, w = before ++ '(' :: (t.symbol.toList ++ [')']) := by
  unfold testOfWord? at h
  split at h
  · next hhead =>
    obtain ⟨symbol, hsymbol, rfl⟩ := Option.map_eq_some_iff.mp h
    obtain ⟨hw, hidentifier⟩ := definedSymbol?_eq_some hsymbol
    obtain ⟨rest, rfl⟩ := List.head?_eq_some_iff.mp hhead
    refine ⟨hidentifier, "!defined".toList, ?_⟩
    rw [List.tail_cons] at hw
    rw [hw]
    simp [Test.undefined]
  · obtain ⟨symbol, hsymbol, rfl⟩ := Option.map_eq_some_iff.mp h
    obtain ⟨hw, hidentifier⟩ := definedSymbol?_eq_some hsymbol
    refine ⟨hidentifier, "defined".toList, ?_⟩
    rw [hw]
    simp [Test.defined]

/-- What stands in a text in parentheses is mentioned in it. -/
theorem mentions_of_parentheses {text name : String} {before rest : List Char}
    (hname : Text.isIdentifier name = true)
    (h : text.toList = before ++ '(' :: (name.toList ++ ')' :: rest)) :
    Text.Mentions text name := by
  obtain ⟨hchars, c, hc, -⟩ := Text.isIdentifier_iff.mp hname
  have hne : name.toList ≠ [] := fun hnil => by simp [hnil] at hc
  rw [Text.Mentions, h, Text.pieces_append_cons (by decide), Text.pieces_append_cons (by decide),
    Text.pieces_eq_singleton hne hchars]
  simp

/-- **A condition mentions the symbols that it tests.** -/
theorem mentions_of_alternatives? {text : String} {alternatives : List (List Test)}
    (h : alternatives? (words text.toList) = some alternatives) :
    ∀ ts ∈ alternatives, ∀ t ∈ ts, Text.Mentions text t.symbol := by
  intro ts hts t ht
  obtain ⟨chunk, hchunk, hts⟩ := exists_of_mapM_option h ts hts
  obtain ⟨ws, hws, ht⟩ := exists_of_mapM_option hts t ht
  obtain ⟨w, rfl, hw⟩ : ∃ w, ws = [w] ∧ testOfWord? w = some t := by
    unfold testOfWords? at ht
    split at ht
    · next w => exact ⟨w, rfl, ht⟩
    · exact absurd ht (by simp)
  -- the word of the test is one of the text
  have hword : w ∈ words text.toList :=
    (infix_of_mem_splitOn hchunk).mem ((infix_of_mem_splitOn hws).mem (List.mem_singleton_self w))
  obtain ⟨a, b, htext⟩ := infix_of_mem_splitOn (List.mem_filter.mp hword).1
  obtain ⟨hidentifier, before, rfl⟩ := exists_of_testOfWord? hw
  have hparentheses : text.toList =
      a ++ before ++ '(' :: (t.symbol.toList ++ ')' :: b) := by
    rw [← htext]
    simp
  exact mentions_of_parentheses hidentifier hparentheses

/-- A condition that mentions no symbol that is known has no value. -/
theorem wordsValue_eq_none {known : String → Option Bool} {text : String}
    (h : ∀ name, Text.Mentions text name → known name = none) :
    wordsValue known (words text.toList) = none := by
  rw [wordsValue, Option.bind_eq_none_iff]
  intro alternatives halternatives
  -- there is an alternative, and a test in it
  obtain ⟨ts, later, rfl⟩ := List.exists_cons_of_ne_nil
    (ne_nil_of_mapM_option halternatives (List.splitOn_ne_nil _ _))
  obtain ⟨chunk, -, hts⟩ := exists_of_mapM_option halternatives ts List.mem_cons_self
  obtain ⟨t, ht⟩ := List.exists_mem_of_ne_nil ts
    (ne_nil_of_mapM_option hts (List.splitOn_ne_nil _ _))
  exact valueOf_of_unknown List.mem_cons_self ht
    (h _ (mentions_of_alternatives? halternatives ts List.mem_cons_self t ht))

/-! ### Permutations of a directive -/

/-- The permutation that a symbol is of. -/
def symbolIndex? (count : Nat) (symbol : String) : Option Nat :=
  (List.range count).find? fun i => permutationSymbol i == symbol

/-- The permutation that a test asks for. -/
def testIndex? (count : Nat) : List Test → Option Nat
  | [t] => if t.isDefined then symbolIndex? count t.symbol else none
  | _ => none

/-- The permutations that a directive asks for, if that is all it asks for. -/
def branchIndices? (count : Nat) (line : String) : Option (List Nat) :=
  match lineRole line with
  | .opens c => (alternatives? c).bind (·.mapM (testIndex? count))
  | .continues c => (alternatives? c).bind (·.mapM (testIndex? count))
  | _ => none

variable {count index : Nat} {indices : List Nat}

theorem symbolIndex?_permutationSymbol (h : index < count) :
    symbolIndex? count (permutationSymbol index) = some index := by
  rw [symbolIndex?, List.find?_range_eq_some]
  refine ⟨by simp, List.mem_range.mpr h, fun i hi => ?_⟩
  have hne : permutationSymbol i ≠ permutationSymbol index := fun heq =>
    absurd (permutationSymbol_injective heq) hi.ne
  simpa using hne

theorem eq_of_symbolIndex? {symbol : String} (h : symbolIndex? count symbol = some index) :
    index < count ∧ symbol = permutationSymbol index := by
  rw [symbolIndex?, List.find?_range_eq_some] at h
  exact ⟨List.mem_range.mp h.2.1, (by simpa using h.1 : permutationSymbol index = symbol).symm⟩

theorem exists_of_testIndex? {ts : List Test} (h : testIndex? count ts = some index) :
    ∃ t ∈ ts, index < count ∧ t.symbol = permutationSymbol index := by
  unfold testIndex? at h
  split at h
  · next t =>
    split at h
    · exact ⟨t, List.mem_singleton_self t, eq_of_symbolIndex? h⟩
    · exact absurd h (by simp)
  · exact absurd h (by simp)

theorem mapM_testIndex? (h : ∀ i ∈ indices, i < count) :
    (indices.map fun i => [Test.defined (permutationSymbol i)]).mapM (testIndex? count) =
      some indices := by
  have hread : ∀ i ∈ indices, testIndex? count [Test.defined (permutationSymbol i)] = some i :=
    fun i hi => symbolIndex?_permutationSymbol (h i hi)
  rw [mapM_eq_some_map hread, List.map_id']

/-- **The permutations of a generated directive** are read back from its line. -/
theorem branchIndices?_branch (depth position : Nat) (hne : indices ≠ [])
    (h : ∀ i ∈ indices, i < count) :
    branchIndices? count (lineBody depth
      (Directive.branch position (permutationsCondition indices)).text) = some indices := by
  have hread : (alternatives? (words (permutationsCondition indices).text.toList)).bind
      (·.mapM (testIndex? count)) = some indices := by
    rw [alternatives?_words_text (isReadable_permutationsCondition hne)]
    have htests := mapM_testIndex? h
    rw [permutationsCondition, conditionAlternatives?, List.map_map]
    exact htests
  unfold Directive.branch
  split
  · rw [branchIndices?, lineRole_directive]
    exact hread
  · rw [branchIndices?, lineRole_directive]
    exact hread

theorem branchIndices?_text {line : String} (h : lineRole line = .text) :
    branchIndices? count line = none := by
  rw [branchIndices?, h]

theorem branchIndices?_endIf (depth : Nat) :
    branchIndices? count (lineBody depth Directive.endIf.text) = none := by
  rw [branchIndices?, Code.lineRole_endIf]

/-- A condition that mentions no symbol of a permutation asks for none. -/
theorem branchIndices?_verbatim {text : String} (depth : Nat)
    (h : ∀ i < count, ¬Text.Mentions text (permutationSymbol i)) :
    branchIndices? count (lineBody depth (Directive.ifTrue (.verbatim text)).text) = none := by
  simp only [branchIndices?, Code.lineRole_verbatim]
  rw [Option.bind_eq_none_iff]
  intro alternatives halternatives
  rw [Option.eq_none_iff_forall_ne_some]
  intro indices hindices
  obtain ⟨i, hi⟩ := List.exists_mem_of_ne_nil indices
    (ne_nil_of_mapM_option hindices (ne_nil_of_mapM_option halternatives (List.splitOn_ne_nil _ _)))
  obtain ⟨ts, hts, hread⟩ := exists_of_mapM_option hindices i hi
  obtain ⟨t, ht, hlt, hsymbol⟩ := exists_of_testIndex? hread
  exact h i hlt (hsymbol ▸ mentions_of_alternatives? halternatives ts hts t ht)

/-! ### Code without branches -/

/-- Code that asks for no permutation, and stays as it is in each. -/
structure Code.IsBranchFree (count : Nat) (code : List Code) : Prop where
  isKept : ∀ index, Code.IsKept (knownIn count index) code
  branchIndices?_eq_none : ∀ depth, ∀ line ∈ Code.writtenLines depth code,
    branchIndices? count line = none

namespace Code.IsBranchFree

variable {code rest : List Code}

theorem nil : IsBranchFree count [] where
  isKept _ := IsKept.nil
  branchIndices?_eq_none _ := List.forall_mem_nil _

theorem append (h : IsBranchFree count code) (hrest : IsBranchFree count rest) :
    IsBranchFree count (code ++ rest) where
  isKept index := (h.isKept index).append (hrest.isKept index)
  branchIndices?_eq_none depth := by
    rw [writtenLines_append]
    exact List.forall_mem_append.mpr
      ⟨h.branchIndices?_eq_none depth, hrest.branchIndices?_eq_none depth⟩

theorem flatMap {ι : Type} {items : List ι} {f : ι → List Code}
    (h : ∀ i ∈ items, IsBranchFree count (f i)) : IsBranchFree count (items.flatMap f) := by
  induction items with
  | nil => exact nil
  | cons i items ih =>
    obtain ⟨hi, hitems⟩ := List.forall_mem_cons.mp h
    rw [List.flatMap_cons]
    exact hi.append (ih hitems)

/-- Of code that leaves its own lines, only these have to be looked at. -/
theorem of_leavesLines
    (h : ∀ index, LeavesLines (knownIn count index) code fun depth => writtenLines depth code)
    (hbranch : ∀ depth, ∀ line ∈ writtenLines depth code, branchIndices? count line = none) :
    IsBranchFree count code where
  isKept index := ⟨(h index).isOneLine, (h index).yields⟩
  branchIndices?_eq_none := hbranch

theorem line {s : String} (h : IsPlain s) : IsBranchFree count [.line s] :=
  of_leavesLines (fun _ => .line h) fun depth => List.forall_mem_singleton.mpr
    (branchIndices?_text ((lineRole_lineBody depth s).trans h.2))

theorem of_lines (h : ∀ c ∈ code, ∃ s, c = .line s ∧ IsPlain s) : IsBranchFree count code := by
  induction code with
  | nil => exact nil
  | cons c code ih =>
    obtain ⟨⟨s, rfl, hs⟩, hcode⟩ := List.forall_mem_cons.mp h
    exact (line hs).append (ih hcode)

theorem newline : IsBranchFree count [.newline] :=
  of_leavesLines (fun _ => .newline) fun _ => List.forall_mem_singleton.mpr (branchIndices?_text rfl)

theorem nested (scope : Scope) (h : IsBranchFree count code) :
    IsBranchFree count [.nested scope code] := by
  have hlines : ∀ depth, writtenLines depth [.nested scope code] =
      scope.opening?.toList.map (lineBody depth) ++ writtenLines (depth + 1) code ++
        scope.closing?.toList.map (lineBody depth) := by
    intro depth
    rw [writtenLines, writtenLines, List.append_nil, writtenLine]
  have hedges : (∀ s ∈ scope.opening?.toList, IsPlain s) ∧
      ∀ s ∈ scope.closing?.toList, IsPlain s := by
    cases scope <;> decide
  have hedge : ∀ {edge : List String}, (∀ s ∈ edge, IsPlain s) → ∀ depth,
      ∀ line ∈ edge.map (lineBody depth), branchIndices? count line = none := by
    intro edge hplain depth
    exact List.forall_mem_map.mpr fun s hs =>
      branchIndices?_text ((lineRole_lineBody depth s).trans (hplain s hs).2)
  refine of_leavesLines (fun index => ?_) fun depth => ?_
  · have hkept := h.isKept index
    simp only [hlines]
    exact LeavesLines.nested scope ⟨hkept.isOneLine, hkept.yields⟩
  · rw [hlines]
    exact List.forall_mem_append.mpr ⟨List.forall_mem_append.mpr
      ⟨hedge hedges.1 depth, h.branchIndices?_eq_none (depth + 1)⟩, hedge hedges.2 depth⟩

/-- **A line under a condition** that mentions no symbol of a permutation asks for none. -/
theorem guardedBy {condition : Option String} {line : String}
    (hcondition : ∀ s ∈ condition, Text.IsOneLine s)
    (hnames : ∀ s ∈ condition, ∀ i < count, ¬Text.Mentions s (permutationSymbol i))
    (hline : IsPlain line) : IsBranchFree count (Code.guardedBy condition line) where
  isKept index := by
    refine isKept_guardedBy hcondition (fun s hs => wordsValue_eq_none fun name hname => ?_) hline
    refine if_neg fun hmem => ?_
    obtain ⟨i, hi, rfl⟩ := List.mem_map.mp hmem
    exact hnames s hs i (List.mem_range.mp hi) hname
  branchIndices?_eq_none depth := by
    have hbody : ∀ l ∈ writtenLines depth [.line line], branchIndices? count l = none :=
      (IsBranchFree.line hline).branchIndices?_eq_none depth
    cases condition with
    | none => exact hbody
    | some text =>
      rw [Code.guardedBy, writtenLines_guarded]
      exact List.forall_mem_append.mpr
        ⟨List.forall_mem_cons.mpr ⟨branchIndices?_verbatim depth (hnames text rfl), hbody⟩,
          List.forall_mem_singleton.mpr (branchIndices?_endIf depth)⟩

end Code.IsBranchFree

end MaterialShader
