import MaterialShader.Proofs.Choice
import MaterialShader.Proofs.ValueSymbol

/-!
# The symbol of the selected permutation

The code that defines the permutation symbols asks for one permutation after the other whether
its choice of values is in force.  Exactly one is, so exactly one symbol gets defined, and its
number is that of the choice.

## Main results

* `isIdentifier_permutationSymbol`, `permutationSymbol_injective` — the symbols of permutations
  are identifiers, and they differ.
* `Keywords.permutationSymbols_of_choice` — permutations are numbered in lexicographic order of
  their choices, and a choice defines the symbol of its permutation alone.
-/

namespace MaterialShader

open Preprocessor
open Writer (lineBody)

/-! ### Permutation symbols -/

theorem toList_permutationSymbol (i : Nat) :
    (permutationSymbol i).toList = "KEYWORD_PERMUTATION_".toList ++ Nat.toDigits 10 i := by
  have hdigits : (toString i).toList = Nat.toDigits 10 i := by
    rw [Nat.toString_eq_ofList_toDigits]
    exact String.toList_ofList
  have htext : permutationSymbol i = "KEYWORD_PERMUTATION_" ++ toString i := rfl
  rw [htext, String.toList_append, hdigits]

theorem isIdentifier_permutationSymbol (i : Nat) :
    Text.isIdentifier (permutationSymbol i) = true := by
  have hbegin : "KEYWORD_PERMUTATION_".toList.all Text.isIdentChar = true := by decide +kernel
  rw [Text.isIdentifier_iff, toList_permutationSymbol]
  refine ⟨?_, 'K', rfl, by decide⟩
  intro c hc
  rcases List.mem_append.mp hc with hc | hc
  · exact List.all_eq_true.mp hbegin c hc
  · have hdigit : c.isDigit = true := Nat.isDigit_of_mem_toDigits (by decide) (by decide) hc
    simp [Text.isIdentChar, Char.isAlphanum, hdigit]

theorem permutationSymbol_injective : Function.Injective permutationSymbol :=
  Text.numbered_injective "KEYWORD_PERMUTATION_"

/-- The line that defines a permutation symbol is text to the preprocessor. -/
theorem lineRole_define {depth i : Nat} :
    lineRole (lineBody depth ("#define " ++ permutationSymbol i)) = .text := by
  have hline : ("#define " ++ permutationSymbol i).toList =
      "#define".toList ++ ' ' :: (permutationSymbol i).toList := by
    simp
  rw [lineRole, words_lineBody, hline, words_append_blank, words_of_notMem (by decide) (by decide)]
  rfl

theorem isOneLine_define (i : Nat) : Text.IsOneLine ("#define " ++ permutationSymbol i) :=
  Text.isOneLine_append.mpr
    ⟨by decide, Text.isOneLine_of_isIdentifier (isIdentifier_permutationSymbol i)⟩

namespace Keywords

variable {ks : Keywords} {vs : List Nat} {defined : String → Bool}

/-! ### The branches of the permutations -/

theorem permuting_ne_nil (h : 1 < ks.permutationCount) : ks.permuting ≠ [] := by
  intro hnil
  rw [permutationCount, hnil] at h
  exact absurd h (by decide)

theorem isChoice_permutationArms (h : 1 < ks.permutationCount) :
    IsChoice (ks.permutationArms.map Prod.fst) := by
  -- only the branch of permutation zero opens the group
  obtain ⟨n, hn⟩ : ∃ n, ks.permutationCount = n + 1 := ⟨ks.permutationCount - 1, by omega⟩
  rw [permutationArms, hn, List.range_succ_eq_map, List.map_map, List.map_cons]
  refine ⟨⟨_, rfl⟩, fun d hd => ?_⟩
  obtain ⟨i, hi, rfl⟩ := List.mem_map.mp hd
  obtain ⟨j, -, rfl⟩ := List.mem_map.mp hi
  exact Or.inl ⟨_, rfl⟩

theorem directiveCondition?_branch (i : Nat) (c : Shading.Condition) :
    directiveCondition? (.branch i c) = some c := by
  unfold Shading.Directive.branch
  split <;> rfl

theorem isReadable_of_mem_permutationArms (h : ks.WellNamed) (hks : ks.permuting ≠ []) :
    ∀ a ∈ ks.permutationArms, ∀ c ∈ directiveCondition? a.1, IsReadable c := by
  intro a ha c hc
  obtain ⟨i, -, rfl⟩ := List.mem_map.mp ha
  rw [directiveCondition?_branch, Option.mem_some_iff] at hc
  exact hc ▸ isReadable_permutationTest h hks i

theorem directiveValue_branch (h : ks.WellNamed) (hks : ks.permuting ≠ []) (i : Nat) :
    directiveValue (fun s => some (defined s)) (.branch i (ks.permutationTest i)) =
      some ((ks.permutationTest i).holds defined) := by
  rw [directiveValue, directiveCondition?_branch]
  exact conditionValue_eq_holds (isReadable_permutationTest h hks i).1 fun t _ => rfl

/-- A choice in force defines the symbol of its permutation. -/
theorem preprocess_permutationSymbols (h : ks.WellNamed)
    (hvalues : ∀ k ∈ ks.permuting, k.hasValues = true) (hcount : 1 < ks.permutationCount)
    (hinj : Set.InjOn ks.tuple (Set.Iio ks.permutationCount)) {i : Nat}
    (hi : i < ks.permutationCount) (hselect : ks.Selects (ks.tuple i) defined) (depth : Nat) :
    preprocess (fun s => some (defined s)) (Code.fullText depth ks.permutationSymbols) =
      [lineBody (depth + 1) ("#define " ++ permutationSymbol i)] := by
  have hks := permuting_ne_nil hcount
  have hchoice : ks.tuple i ∈ ks.choices := by
    rw [tuple_eq_valuesAt h.references]
    exact areValues_valuesAt ks.permuting i
  have hholds : ∀ j, (ks.permutationTest j).holds defined = true ↔ ks.tuple j = ks.tuple i :=
    holds_permutationTest_iff h hvalues hchoice hselect
  have htext : ∀ a ∈ ks.permutationArms,
      Text.IsOneLine a.2 ∧ lineRole (lineBody (depth + 1) a.2) = .text := by
    intro a ha
    obtain ⟨j, -, rfl⟩ := List.mem_map.mp ha
    exact ⟨isOneLine_define j, lineRole_define⟩
  have hfind : ks.permutationArms.find?
        (fun a => directiveValue (fun s => some (defined s)) a.1 == some true) =
      some (.branch i (ks.permutationTest i), "#define " ++ permutationSymbol i) := by
    rw [permutationArms, List.find?_map, Option.map_eq_some_iff]
    refine ⟨i, ?_, rfl⟩
    rw [List.find?_range_eq_some]
    refine ⟨?_, List.mem_range.mpr hi, fun j hj => ?_⟩
    · rw [Function.comp_apply, directiveValue_branch h hks, (hholds i).mpr rfl]
      rfl
    · -- the permutations before it make other choices
      have hne : ¬(ks.permutationTest j).holds defined = true := fun hj' =>
        absurd (hinj (hj.trans hi) hi ((hholds j).mp hj')) hj.ne
      rw [Function.comp_apply, directiveValue_branch h hks, Bool.eq_false_iff.mpr hne]
      rfl
  rw [permutationSymbols_eq_choice hcount, preprocess_choice defined depth
    (isChoice_permutationArms hcount) (isReadable_of_mem_permutationArms h hks) htext, hfind]
  rfl

/-- **Permutations are numbered in lexicographic order** of the values they give to the
permuting keywords, each choice of values being one permutation.  Where a choice is in force,
the preprocessor defines the symbol of its permutation and no other. -/
theorem permutationSymbols_of_choice (h : ks.WellNamed)
    (hvalues : ∀ k ∈ ks.permuting, k.hasValues = true)
    (hmax : combinations ks.permuting ≤ maxCount) (hcount : 1 < ks.permutationCount) :
    (∀ i, ks.permuting.map (fun k => ks.valueIn? i k.referenceName) = (ks.tuple i).map some) ∧
      Set.BijOn ks.tuple (Set.Iio ks.permutationCount) ks.choices ∧
      StrictMonoOn ks.tuple (Set.Iio ks.permutationCount) ∧
      ∀ vs ∈ ks.choices, ∀ defined, ks.Selects vs defined → ∀ depth,
        ∃ i < ks.permutationCount, ks.tuple i = vs ∧
          preprocess (fun s => some (defined s)) (Code.fullText depth ks.permutationSymbols) =
            [lineBody (depth + 1) ("#define " ++ permutationSymbol i)] := by
  have hall : ks.permutationCount = combinations ks.permuting := by
    rw [permutationCount_eq, Nat.min_eq_left hmax]
  have hbij := bijOn_tuple h.references
  have hmono := strictMonoOn_tuple h.references
  rw [← hall] at hbij hmono
  refine ⟨fun i => ?_, hbij, hmono, fun vs hvs defined hselect depth => ?_⟩
  · rw [map_valueIn? h.references, tuple_eq_valuesAt h.references]
  · obtain ⟨i, hi, rfl⟩ := hbij.surjOn hvs
    exact ⟨i, hi, rfl,
      preprocess_permutationSymbols h hvalues hcount hbij.injOn hi hselect depth⟩

end Keywords

/-! ### A choice among the sample keywords -/

theorem permutationSymbols_of_choice_sample :
    ∃ i < 6, sampleKeywords.tuple i = [1, 0] ∧
      preprocess (fun s => some (s == "SNOW" || s == "QUALITY_LOW" || s == "FOG"))
          (Code.fullText 0 sampleKeywords.permutationSymbols) =
        [lineBody 1 ("#define " ++ permutationSymbol i)] := by
  have hchoice : [1, 0] ∈ sampleKeywords.choices :=
    .cons (by decide) (.cons (by decide) .nil)
  have hnames : sampleKeywords.WellNamed := by decide +kernel
  obtain ⟨-, -, -, hchoices⟩ := Keywords.permutationSymbols_of_choice hnames
    (by decide +kernel) (by decide +kernel) (by decide +kernel)
  obtain ⟨i, hi, htuple, hlines⟩ := hchoices [1, 0] hchoice
    (fun s => s == "SNOW" || s == "QUALITY_LOW" || s == "FOG") (by decide +kernel) 0
  exact ⟨i, lt_of_lt_of_eq hi (by decide +kernel), htuple, hlines⟩

end MaterialShader
