import Mathlib.Data.List.Lattice
import Mathlib.Data.List.Nodup
import Mathlib.Data.List.Pairwise
import MaterialShader.Proofs.DirectiveText
import MaterialShader.Proofs.PermutationIndex

/-!
# The symbols of a choice

The values of keywords are known to the preprocessor by symbols.  A choice of values is in
force when, of the symbols of all values, those of the chosen ones are defined.  If no two
values share a symbol, the test for a value then holds exactly if the value is chosen.

## Main definitions

* `Keyword.HasIdentifiers`, `Keyword.valueSymbols` — the names and the symbols of a keyword.
* `Keywords.WellNamed` — the names are fit for the preprocessor and tell keywords apart.
* `Keywords.Selects` — a choice is in force.
* `sampleKeywords` — a boolean keyword, a predefined one, and an enum keyword of three entries.

## Main results

* `Keywords.defined_iff_eq` — the symbol of a value is defined exactly if the value is chosen.
* `Keywords.holds_valueTest_iff` — so is the test for a value.
* `Keywords.holds_permutationTest_iff` — the condition of a permutation holds exactly if the
  choice in force is that of the permutation.
-/

namespace MaterialShader

open Shading (Test Condition)

/-! ### Names and symbols -/

namespace Keyword

/-- The names that the symbols of a keyword are made of are identifiers. -/
def HasIdentifiers (k : Keyword) : Prop :=
  Text.isIdentifier k.referenceName = true ∧
    ∀ e ∈ k.entries, Text.isIdentifier e.referenceName = true

instance (k : Keyword) : Decidable k.HasIdentifiers := inferInstanceAs (Decidable (_ ∧ _))

/-- The symbols of all values. -/
def valueSymbols (k : Keyword) : List String := (List.range k.valueCount).filterMap k.valueSymbol?

variable {k : Keyword} {v w : Nat} {s : String}

theorem lt_valueCount_of_valueSymbol? (h : k.valueSymbol? v = some s) : v < k.valueCount := by
  unfold valueSymbol? at h
  unfold valueCount
  split at h
  · by_cases hv : v = 1
    · omega
    · rw [if_neg hv] at h
      exact absurd h (by simp)
  · obtain ⟨e, he, -⟩ := Option.map_eq_some_iff.mp h
    exact (List.getElem?_eq_some_iff.mp he).1.trans_le (Nat.le_max_left _ _)

theorem mem_valueSymbols : s ∈ k.valueSymbols ↔ ∃ v, k.valueSymbol? v = some s := by
  rw [valueSymbols, List.mem_filterMap]
  refine exists_congr fun v => and_iff_right_of_imp fun h => ?_
  exact List.mem_range.mpr (lt_valueCount_of_valueSymbol? h)

theorem isIdentifier_entrySymbol (hk : k.HasIdentifiers) {e : KeywordEntry} (he : e ∈ k.entries) :
    Text.isIdentifier (k.entrySymbol e) = true := by
  obtain ⟨hchars, first, hfirst, hdigit⟩ := Text.isIdentifier_iff.mp hk.1
  obtain ⟨hentry, -⟩ := Text.isIdentifier_iff.mp (hk.2 e he)
  rw [Text.isIdentifier_iff, entrySymbol, String.toList_append, String.toList_append]
  refine ⟨?_, first, ?_, hdigit⟩
  · intro c hc
    rcases List.mem_append.mp hc with hc | hc
    · rcases List.mem_append.mp hc with hc | hc
      · exact hchars c hc
      · rw [List.mem_singleton.mp hc]
        decide
    · exact hentry c hc
  · rw [List.append_assoc, List.head?_append, hfirst]
    rfl

theorem isIdentifier_of_valueSymbol? (hk : k.HasIdentifiers) (h : k.valueSymbol? v = some s) :
    Text.isIdentifier s = true := by
  unfold valueSymbol? at h
  split at h
  · split at h
    · exact Option.some.inj h ▸ hk.1
    · exact absurd h (by simp)
  · obtain ⟨e, he, rfl⟩ := Option.map_eq_some_iff.mp h
    exact isIdentifier_entrySymbol hk (List.mem_of_getElem? he)

theorem isIdentifier_valueTest (hk : k.HasIdentifiers) :
    Text.isIdentifier (k.valueTest v).symbol = true := by
  have hgetD : Text.isIdentifier ((k.valueSymbol? v).getD k.referenceName) = true := by
    cases h : k.valueSymbol? v with
    | none => exact hk.1
    | some s => exact isIdentifier_of_valueSymbol? hk h
  unfold valueTest
  split
  · split
    · exact hk.1
    · exact hgetD
  · exact hgetD

end Keyword

namespace Keywords

/-- The permuting keywords have names that preprocessor symbols can be made of, each has a
name of its own, and each value a symbol of its own. -/
structure WellNamed (ks : Keywords) : Prop where
  /-- The names are identifiers. -/
  identifiers : ∀ k ∈ ks.permuting, k.HasIdentifiers
  /-- The keywords differ in their names. -/
  references : (ks.permuting.map Keyword.referenceName).Nodup
  /-- The values differ in their symbols. -/
  symbols : (ks.permuting.flatMap Keyword.valueSymbols).Nodup

instance (ks : Keywords) : Decidable ks.WellNamed :=
  decidable_of_iff (_ ∧ _ ∧ _) ⟨fun h => ⟨h.1, h.2.1, h.2.2⟩, fun h => ⟨h.1, h.2, h.3⟩⟩

/-- A choice of values is in force: of the symbols that belong to permuting keywords, those of
the chosen values are defined.  Nothing is said of other symbols. -/
def Selects (ks : Keywords) (vs : List Nat) (defined : String → Bool) : Prop :=
  ∀ k ∈ ks.permuting, ∀ s ∈ k.valueSymbols,
    (defined s = true ↔ ∃ p ∈ ks.permuting.zip vs, p.1.valueSymbol? p.2 = some s)

instance (ks : Keywords) (vs : List Nat) (defined : String → Bool) :
    Decidable (ks.Selects vs defined) := by
  unfold Selects
  infer_instance

variable {ks : Keywords} {vs : List Nat} {defined : String → Bool} {k : Keyword} {v w : Nat}
  {s : String}

namespace WellNamed

/-- A symbol tells the keyword and the value. -/
theorem eq_of_valueSymbol? (h : ks.WellNamed) {k' : Keyword} (hk : k ∈ ks.permuting)
    (hk' : k' ∈ ks.permuting) (hs : k.valueSymbol? v = some s) (hs' : k'.valueSymbol? w = some s) :
    k = k' ∧ v = w := by
  obtain ⟨hvalues, hdisjoint⟩ := List.nodup_flatMap.mp h.symbols
  -- the symbols of different keywords are disjoint, so there is one keyword
  have hkeyword : k = k' := by
    have : Std.Symm (Function.onFun List.Disjoint Keyword.valueSymbols) :=
      ⟨fun _ _ h => List.Disjoint.symm h⟩
    by_contra hne
    exact hdisjoint.forall hk hk' hne (Keyword.mem_valueSymbols.mpr ⟨v, hs⟩)
      (Keyword.mem_valueSymbols.mpr ⟨w, hs'⟩)
  subst hkeyword
  -- and among its symbols every value has one of its own
  refine ⟨rfl, ?_⟩
  have hrange := List.pairwise_filterMap.mp (hvalues k hk)
  have : Std.Symm fun v w => ∀ b, k.valueSymbol? v = some b →
      ∀ b', k.valueSymbol? w = some b' → b ≠ b' :=
    ⟨fun _ _ h b hb b' hb' => (h b' hb' b hb).symm⟩
  by_contra hne
  exact hrange.forall (List.mem_range.mpr (Keyword.lt_valueCount_of_valueSymbol? hs))
    (List.mem_range.mpr (Keyword.lt_valueCount_of_valueSymbol? hs')) hne s hs s hs' rfl

/-- A keyword has one value in a choice. -/
theorem eq_of_mem_zip (h : ks.WellNamed) (hv : (k, v) ∈ ks.permuting.zip vs)
    (hw : (k, w) ∈ ks.permuting.zip vs) : v = w := by
  have := (find?_zip_of_nodup h.references hv).symm.trans (find?_zip_of_nodup h.references hw)
  simpa using this

end WellNamed

/-! ### What a choice defines -/

/-- **The symbol of a value** is defined exactly if the value is chosen. -/
theorem defined_iff_eq (h : ks.WellNamed) (hselect : ks.Selects vs defined)
    (hv : (k, v) ∈ ks.permuting.zip vs) (hs : k.valueSymbol? w = some s) :
    defined s = true ↔ w = v := by
  have hk : k ∈ ks.permuting := (List.of_mem_zip hv).1
  rw [hselect k hk s (Keyword.mem_valueSymbols.mpr ⟨w, hs⟩)]
  constructor
  · rintro ⟨⟨k', v'⟩, hmem, hs'⟩
    obtain ⟨rfl, rfl⟩ := h.eq_of_valueSymbol? hk (List.of_mem_zip hmem).1 hs hs'
    exact h.eq_of_mem_zip hmem hv
  · rintro rfl
    exact ⟨(k, w), hv, hs⟩

/-- **The test for a value** holds exactly if the value is chosen. -/
theorem holds_valueTest_iff (h : ks.WellNamed) (hselect : ks.Selects vs defined)
    (hv : (k, v) ∈ ks.permuting.zip vs) (hvalues : k.hasValues = true) (hlt : v < k.valueCount)
    (hw : w < k.valueCount) : (k.valueTest w).holds defined = true ↔ w = v := by
  have hsymbol : ∀ {w s}, k.valueSymbol? w = some s → (defined s = true ↔ w = v) :=
    fun hs => defined_iff_eq h hselect hv hs
  unfold Keyword.hasValues at hvalues
  unfold Keyword.valueCount at hlt hw
  unfold Keyword.valueSymbol? at hsymbol
  unfold Keyword.valueTest Keyword.valueSymbol?
  cases hkind : k.kind with
  | boolean =>
    simp only [hkind] at hlt hw hsymbol ⊢
    -- of the two values only the second has a symbol, and the first is tested by its absence
    have hon : defined k.referenceName = true ↔ 1 = v := hsymbol (by simp)
    by_cases hzero : w = 0
    · subst hzero
      rw [if_pos rfl, Test.holds, Test.undefined, beq_false, Bool.not_eq_true', ← Bool.not_eq_true,
        hon]
      omega
    · have hone : w = 1 := by omega
      subst hone
      simpa [Test.holds, Test.defined] using hon
  | enum =>
    simp only [hkind, Bool.not_eq_true', List.isEmpty_eq_false_iff] at hvalues hlt hw hsymbol ⊢
    have hpos : 0 < k.entries.length := List.length_pos_iff.mpr hvalues
    have hentry : k.entries[w]? = some k.entries[w] := List.getElem?_eq_getElem (by omega)
    have hdefined : defined (k.entrySymbol k.entries[w]) = true ↔ w = v :=
      hsymbol (by rw [hentry]; rfl)
    simpa [Test.holds, Test.defined, hentry] using hdefined

/-! ### The condition of a permutation -/

theorem permutationTests_eq_map (h : ks.WellNamed) (i : Nat) :
    ks.permutationTests i =
      (ks.permuting.zip (valuesAt ks.permuting i)).map fun p => p.1.valueTest p.2 := by
  rw [permutationTests]
  conv_lhs => rw [← map_fst_zip_valuesAt ks.permuting i]
  rw [List.filterMap_map, ← List.filterMap_eq_map]
  refine List.filterMap_congr fun p hp => ?_
  rw [Function.comp_apply, valueIn?_of_mem_zip h.references hp]
  rfl

/-- Values agree if they do beside every keyword. -/
theorem eq_of_forall_zip {l : List Keyword} {vs ws : List Nat} (hvs : vs.length = l.length)
    (hws : ws.length = l.length)
    (h : ∀ k v w, (k, v) ∈ l.zip vs → (k, w) ∈ l.zip ws → w = v) : ws = vs := by
  refine List.ext_getElem (hws.trans hvs.symm) fun n hn hn' => ?_
  have hl : n < l.length := hws ▸ hn
  refine h l[n] vs[n] ws[n] ?_ ?_
  · rw [← List.getElem_zip (h := by simp; omega)]
    exact List.getElem_mem _
  · rw [← List.getElem_zip (h := by simp; omega)]
    exact List.getElem_mem _

/-- **The condition of a permutation** holds exactly if the choice in force is that of the
permutation. -/
theorem holds_permutationTest_iff (h : ks.WellNamed)
    (hvalues : ∀ k ∈ ks.permuting, k.hasValues = true) (hvs : vs ∈ ks.choices)
    (hselect : ks.Selects vs defined) (i : Nat) :
    (ks.permutationTest i).holds defined = true ↔ ks.tuple i = vs := by
  have hlength : vs.length = ks.permuting.length := List.Forall₂.length_eq hvs
  -- keyword by keyword, the test asks for the value that the permutation gives it
  have htest : ∀ {k v w}, (k, v) ∈ ks.permuting.zip vs →
      (k, w) ∈ ks.permuting.zip (valuesAt ks.permuting i) →
      ((k.valueTest w).holds defined = true ↔ w = v) := fun hv hw =>
    holds_valueTest_iff h hselect hv (hvalues _ (List.of_mem_zip hv).1)
      (AreValues.lt_of_mem_zip hvs hv)
      (AreValues.lt_of_mem_zip (areValues_valuesAt ks.permuting i) hw)
  rw [tuple_eq_valuesAt h.references, permutationTest, Condition.holds, permutationTests_eq_map h,
    List.all_map, List.all_eq_true]
  constructor
  · intro hall
    refine eq_of_forall_zip hlength (by simp) fun k v w hv hw => ?_
    exact (htest hv hw).mp (hall (k, w) hw)
  · rintro heq ⟨k, w⟩ hmem
    exact (htest (heq ▸ hmem) hmem).mpr rfl

theorem conditionTests_permutationTest_ne_nil (h : ks.WellNamed) (hks : ks.permuting ≠ [])
    (i : Nat) : ks.permutationTests i ≠ [] := by
  rw [permutationTests_eq_map h, Ne, List.map_eq_nil_iff, ← List.length_eq_zero_iff]
  simpa using hks

theorem isReadable_permutationTest (h : ks.WellNamed) (hks : ks.permuting ≠ []) (i : Nat) :
    Preprocessor.IsReadable (ks.permutationTest i) := by
  refine ⟨conditionTests_permutationTest_ne_nil h hks i, fun t ht => ?_⟩
  change t ∈ ks.permutationTests i at ht
  rw [permutationTests_eq_map h] at ht
  obtain ⟨p, hp, rfl⟩ := List.mem_map.mp ht
  exact Keyword.isIdentifier_valueTest (h.identifiers p.1 (List.of_mem_zip hp).1)

end Keywords

/-! ### Keywords to try -/

/-- Two permuting keywords, and one that the pipeline sets. -/
def sampleKeywords : Keywords := [
  { referenceName := "SNOW" },
  { referenceName := "FOG", definition := .predefined },
  { referenceName := "QUALITY", kind := .enum,
    entries := [⟨"Low", "LOW"⟩, ⟨"Medium", "MEDIUM"⟩, ⟨"High", "HIGH"⟩] }]

end MaterialShader
