import MaterialShader.Proofs.FieldClosure

/-!
# Activity seen from one permutation

Where something is active is worked out once for all permutations.  Seen from a single one, it
is active or it is not, and that agrees with the fields that the permutation holds.  So it
agrees with what is worked out from a set of fields without permutations that holds the same.

## Main definitions

* `Activity.IsIn` — something with the activity is active in a permutation.
* `Activity.IsSpread` — the permutations of an activity are some of those that there are.
* `ActiveFields.Isolates` — a set without permutations holds the fields of one permutation.
* `ActiveFields.Shows` — in a permutation, a set is active where certain fields are.

## Main results

* `ActiveFields.isIn_activity_iff`, `ActiveFields.isIn_conditionActivity_iff` — the activity of
  a field and of conditions, seen from a permutation.
* `ActiveFields.Isolates.activity_eq`, `ActiveFields.Isolates.conditionActivity_eq`,
  `ActiveFields.Isolates.shows` — the same of the set that isolates the permutation.
-/

namespace MaterialShader

/-! ### Activities -/

namespace Activity

variable {index count : Nat}

/-- What has the activity is active in a permutation. -/
def IsIn : Activity → Nat → Prop
  | .always, _ => True
  | .permutations indices, index => index ∈ indices
  | .never, _ => False

instance : (a : Activity) → (index : Nat) → Decidable (a.IsIn index)
  | .always, _ => isTrue trivial
  | .permutations indices, index => inferInstanceAs (Decidable (index ∈ indices))
  | .never, _ => isFalse id

/-- The permutations of an activity are some of the `count` that there are, at least one. -/
def IsSpread (count : Nat) : Activity → Prop
  | .permutations indices => indices ≠ [] ∧ ∀ index ∈ indices, index < count
  | _ => True

/-- The activity of what is active everywhere or nowhere. -/
def ofBool (holds : Bool) : Activity := if holds then .always else .never

theorem isIn_ofIndices_filter {p : Nat → Bool} (h : index < count) :
    (ofIndices ((List.range count).filter p) count).IsIn index ↔ p index = true := by
  have hmem : index ∈ (List.range count).filter p ↔ p index = true := by
    rw [List.mem_filter, List.mem_range]
    exact and_iff_right h
  unfold ofIndices
  split
  · next hempty =>
    rw [← hmem, List.isEmpty_iff.mp hempty]
    exact iff_of_false id List.not_mem_nil
  · split
    · next hlength =>
      -- nothing was cut out of the range
      have hall := List.length_filter_eq_length_iff.mp (hlength.trans List.length_range.symm)
      exact iff_of_true trivial (hall index (List.mem_range.mpr h))
    · exact hmem

theorem isSpread_ofIndices_filter (p : Nat → Bool) (count : Nat) :
    (ofIndices ((List.range count).filter p) count).IsSpread count := by
  unfold ofIndices
  split
  · trivial
  · next hempty =>
    split
    · trivial
    · refine ⟨fun hnil => hempty (List.isEmpty_iff.mpr hnil), fun index hindex => ?_⟩
      exact List.mem_range.mp (List.mem_filter.mp hindex).1

theorem isIn_ofBool {holds : Bool} :
    (ofBool holds).IsIn index ↔ holds = true := by
  cases holds with
  | false => exact iff_of_false id Bool.false_ne_true
  | true => exact iff_of_true trivial rfl

theorem isSpread_ofBool (holds : Bool) (count : Nat) :
    (ofBool holds).IsSpread count := by
  cases holds <;> trivial

end Activity

/-! ### Fields and conditions -/

namespace ActiveFields

variable {a b : ActiveFields} {f : Field} {conditions : List FieldCondition} {index : Nat}

/-- The fields of a permutation, those of the base first. -/
def fieldsIn (a : ActiveFields) (index : Nat) : List Field := a.base ++ a.own index

theorem mem_fieldsIn : f ∈ a.fieldsIn index ↔ a.HoldsIn index f := List.mem_append

/-- The permutations with their own sets are the range of all permutations. -/
theorem mapIdx_permutations {β : Type} (a : ActiveFields) (g : Nat → List Field → β) :
    a.permutations.mapIdx g = (List.range a.permutationCount).map fun i => g i (a.own i) := by
  refine List.ext_getElem (by simp [permutationCount]) fun i hi _ => ?_
  rw [List.length_mapIdx] at hi
  simp [own, List.getElem?_eq_getElem hi]

theorem layered_eq (a : ActiveFields) :
    a.layered = (List.range a.permutationCount).map fun i => ⟨some i, a.fieldsIn i⟩ :=
  mapIdx_permutations a _

/-- A field outside the base is active where the fields of the permutation have it. -/
theorem permutationsContaining_eq (hbase : f ∉ a.base) :
    a.permutationsContaining f =
      (List.range a.permutationCount).filter fun i => decide (f ∈ a.fieldsIn i) := by
  have hmem : ∀ i, f ∈ a.fieldsIn i ↔ f ∈ a.own i := fun i =>
    List.mem_append.trans (or_iff_right hbase)
  rw [permutationsContaining, if_neg hbase, mapIdx_permutations, List.filterMap_map]
  simp only [hmem]
  rw [← List.filterMap_eq_filter]
  refine List.filterMap_congr fun i _ => ?_
  simp [Option.guard]

theorem filterMap_permutation_layered (a : ActiveFields) (conditions : List FieldCondition) :
    ((a.layered.filter fun i => FieldCondition.allHold conditions i.fields).filterMap
        (·.permutation)) =
      (List.range a.permutationCount).filter fun i =>
        FieldCondition.allHold conditions (a.fieldsIn i) := by
  rw [layered_eq, List.filter_map, List.filterMap_map]
  exact List.filterMap_some

/-- **A field is active in a permutation** exactly if the permutation holds it. -/
theorem isIn_activity_iff (h : index < a.permutationCount) :
    (a.activity f).IsIn index ↔ a.HoldsIn index f := by
  unfold activity
  split
  · next hbase => exact iff_of_true trivial (Or.inl hbase)
  · next hbase =>
    rw [permutationsContaining_eq hbase, Activity.isIn_ofIndices_filter h, decide_eq_true_eq]
    exact mem_fieldsIn

theorem isSpread_activity : (a.activity f).IsSpread a.permutationCount := by
  unfold activity
  split
  · trivial
  · next hbase =>
    rw [permutationsContaining_eq hbase]
    exact Activity.isSpread_ofIndices_filter _ _

/-- **Conditions hold in a permutation** exactly if they hold of its fields. -/
theorem isIn_conditionActivity_iff (h : index < a.permutationCount) :
    (a.conditionActivity conditions).IsIn index ↔
      FieldCondition.allHold conditions (a.fieldsIn index) = true := by
  unfold conditionActivity
  split
  · next hempty =>
    rw [List.isEmpty_iff.mp hempty]
    exact iff_of_true trivial rfl
  · split
    · next hnone =>
      rw [permutationCount, List.isEmpty_iff.mp hnone] at h
      exact absurd h (Nat.not_lt_zero index)
    · rw [filterMap_permutation_layered]
      exact Activity.isIn_ofIndices_filter h

theorem isSpread_conditionActivity :
    (a.conditionActivity conditions).IsSpread a.permutationCount := by
  unfold conditionActivity
  split
  · trivial
  · split
    · split <;> trivial
    · rw [filterMap_permutation_layered]
      exact Activity.isSpread_ofIndices_filter _ _

/-! ### A permutation by itself -/

/-- A set without permutations holds exactly the fields of a permutation. -/
structure Isolates (a : ActiveFields) (index : Nat) (b : ActiveFields) : Prop where
  /-- There are no permutations. -/
  permutations : b.permutations = []
  /-- The fields are those of the permutation. -/
  mem_base : ∀ f, f ∈ b.base ↔ a.HoldsIn index f

theorem isolates_fieldsIn (a : ActiveFields) (index : Nat) :
    a.Isolates index ⟨a.fieldsIn index, []⟩ where
  permutations := rfl
  mem_base _ := mem_fieldsIn

theorem allHold_congr {fields more : List Field} (h : ∀ f, f ∈ fields ↔ f ∈ more)
    (conditions : List FieldCondition) :
    FieldCondition.allHold conditions fields = FieldCondition.allHold conditions more := by
  simp only [FieldCondition.allHold, h]

namespace Isolates

theorem mem_base_iff (hb : a.Isolates index b) (f : Field) :
    f ∈ b.base ↔ f ∈ a.fieldsIn index := (hb.mem_base f).trans mem_fieldsIn.symm

theorem activity_eq (hb : a.Isolates index b) (h : index < a.permutationCount) (f : Field) :
    b.activity f = .ofBool (decide ((a.activity f).IsIn index)) := by
  have hbase : f ∈ b.base ↔ (a.activity f).IsIn index :=
    (hb.mem_base f).trans (isIn_activity_iff h).symm
  by_cases hf : f ∈ b.base
  · rw [activity, if_pos hf, decide_eq_true (hbase.mp hf)]
    rfl
  · have hnone : b.permutationsContaining f = [] := by
      rw [permutationsContaining, if_neg hf, hb.permutations]
      rfl
    rw [activity, if_neg hf, hnone, decide_eq_false (mt hbase.mpr hf)]
    rfl

theorem conditionActivity_eq (hb : a.Isolates index b) (h : index < a.permutationCount)
    (conditions : List FieldCondition) :
    b.conditionActivity conditions =
      .ofBool (decide ((a.conditionActivity conditions).IsIn index)) := by
  have hholds : FieldCondition.allHold conditions b.base = true ↔
      (a.conditionActivity conditions).IsIn index := by
    rw [allHold_congr hb.mem_base_iff]
    exact (isIn_conditionActivity_iff h).symm
  have hactivity : b.conditionActivity conditions =
      if FieldCondition.allHold conditions b.base then .always else .never := by
    unfold conditionActivity
    split
    · next hempty =>
      rw [List.isEmpty_iff.mp hempty]
      rfl
    · rw [hb.permutations]
      rfl
  rw [hactivity]
  by_cases hconditions : FieldCondition.allHold conditions b.base = true
  · rw [if_pos hconditions, decide_eq_true (hholds.mp hconditions)]
    rfl
  · rw [if_neg hconditions, decide_eq_false (mt hholds.mpr hconditions)]
    rfl

end Isolates

/-! ### Seen from a permutation -/

/-- In one of `count` permutations, a set is active exactly where certain fields are. -/
structure Shows (a : ActiveFields) (count index : Nat) (fields : List Field) : Prop where
  isSpread_activity : ∀ f, (a.activity f).IsSpread count
  isIn_activity : ∀ f, (a.activity f).IsIn index ↔ f ∈ fields
  isSpread_condition : ∀ conditions, (a.conditionActivity conditions).IsSpread count
  isIn_condition : ∀ conditions,
    (a.conditionActivity conditions).IsIn index ↔ FieldCondition.allHold conditions fields = true

/-- A set shows the fields of its permutation. -/
theorem shows_fieldsIn (h : index < a.permutationCount) :
    a.Shows a.permutationCount index (a.fieldsIn index) where
  isSpread_activity _ := isSpread_activity
  isIn_activity _ := (isIn_activity_iff h).trans mem_fieldsIn.symm
  isSpread_condition _ := isSpread_conditionActivity
  isIn_condition _ := isIn_conditionActivity_iff h

/-- **A set that isolates a permutation** shows the same fields. -/
theorem Isolates.shows (hb : a.Isolates index b) (h : index < a.permutationCount) :
    b.Shows a.permutationCount index (a.fieldsIn index) where
  isSpread_activity f := hb.activity_eq h f ▸ Activity.isSpread_ofBool _ _
  isIn_activity f := by
    rw [hb.activity_eq h f, Activity.isIn_ofBool, decide_eq_true_eq]
    exact (shows_fieldsIn h).isIn_activity f
  isSpread_condition conditions :=
    hb.conditionActivity_eq h conditions ▸ Activity.isSpread_ofBool _ _
  isIn_condition conditions := by
    rw [hb.conditionActivity_eq h conditions, Activity.isIn_ofBool, decide_eq_true_eq]
    exact (shows_fieldsIn h).isIn_condition conditions

end ActiveFields
end MaterialShader
