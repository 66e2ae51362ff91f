import Mathlib.Data.List.Nodup
import MaterialShader.Graph.Decode
import MaterialShader.Proofs.FieldActivity
import MaterialShader.Proofs.PassFields

/-!
# Fields that are listed twice

The active fields of a pass come about by changes: fields are added to the base, a field is
added to a permutation, or all of them are propagated along dependencies.  An instance lists the
fields of the base and then those of its permutation, so how often it lists a field is a
question of where the field is stored.

No change adds a field to a set that has it, and none adds a field to a permutation while the
base has it.  The converse is not looked after: the base takes a field whether or not some
permutation has it, and nothing is ever taken out of a set.  So a field is listed twice exactly
if the base gets it when the permutation already has it.  For a pass that is a matter of the
order in which the walk meets the nodes.

## Main definitions

* `FieldChange`, `ActiveFields.after` — the changes, and what they make of no fields at all.
* `FieldChange.GivesBase` — what a change brings to the base.
* `ActiveFields.Extends` — a set gets fields that neither it nor another set has.
* `ActiveFields.IsOvertaken` — the base gets a field that a permutation already has.

## Main results

* `ActiveFields.extends_base_change`, `ActiveFields.extends_own_change` — what one change adds.
* `ActiveFields.mem_base_and_own_after_iff` — which fields are stored twice.
* `ActiveFields.count_fields_after` — how often the instances list a field.
* `exists_after_of_passFields` — the fields of a pass come about by changes.
* `exists_field_listed_twice` — a pass with a field that is listed twice.
-/

namespace MaterialShader

/-! ### Changes -/

/-- A change of the active fields. -/
inductive FieldChange where
  /-- Fields are added to the base. -/
  | addToBase (fields : List Field) : FieldChange
  /-- A field is added to a permutation. -/
  | addToPermutation (index : Nat) (f : Field) : FieldChange
  /-- The fields are propagated along dependencies. -/
  | propagate (dependencies : List FieldDependency) : FieldChange
  deriving DecidableEq, Repr, Inhabited

/-- The change gives a field to the base, unless the base has it. -/
def FieldChange.GivesBase (c : FieldChange) (a : ActiveFields) (f : Field) : Prop :=
  match c with
  | .addToBase fields => f ∈ fields
  | .addToPermutation _ _ => False
  | .propagate dependencies => FieldClosure dependencies (· ∈ a.base) f

namespace ActiveFields

/-- The active fields after a change. -/
def change (a : ActiveFields) : FieldChange → ActiveFields
  | .addToBase fields => a.addToBase fields
  | .addToPermutation index f => a.addToPermutation index f
  | .propagate dependencies => a.propagate dependencies

/-- What changes, one after the other, make of no fields at all. -/
def after (permutationCount : Nat) (changes : List FieldChange) : ActiveFields :=
  changes.foldl change (new permutationCount)

theorem after_append_singleton (count : Nat) (changes : List FieldChange) (c : FieldChange) :
    after count (changes ++ [c]) = (after count changes).change c := List.foldl_concat ..

/-! ### Sets that are extended -/

/-- The set `old` gets fields at its end, one by one, that neither it nor `under` has. -/
inductive Extends (under old : List Field) : List Field → Prop where
  /-- It gets none. -/
  | refl : Extends under old old
  /-- It gets one more. -/
  | add {new : List Field} {f : Field} (h : Extends under old new) (hnew : f ∉ new)
      (hunder : f ∉ under) : Extends under old (new ++ [f])

section Extension

variable {under old new fields : List Field} {dependencies : List FieldDependency} {f : Field}

namespace Extends

theorem subset (h : Extends under old new) : old ⊆ new := by
  induction h with
  | refl => exact List.Subset.refl old
  | add _ _ _ ih => exact List.subset_append_of_subset_left _ ih

theorem nodup (h : Extends under old new) (hold : old.Nodup) : new.Nodup := by
  induction h with
  | refl => exact hold
  | @add new f _ hnew _ ih =>
    exact List.nodup_append'.mpr ⟨ih, List.nodup_singleton f, by simpa using hnew⟩

/-- A field that has come in is not in the other set. -/
theorem notMem_under (h : Extends under old new) (hnew : f ∈ new) (hold : f ∉ old) :
    f ∉ under := by
  induction h with
  | refl => exact absurd hnew hold
  | add _ _ hunder ih =>
    rcases List.mem_append.mp hnew with hf | hf
    · exact ih hf
    · rw [List.mem_singleton.mp hf]
      exact hunder

/-- A field is added unless the set has it. -/
theorem addField (h : Extends under old new) (hunder : f ∉ under) :
    Extends under old (addField new f) := by
  unfold MaterialShader.addField
  split
  · exact h
  · next hnew => exact h.add hnew hunder

theorem addFields (h : Extends [] old new) : Extends [] old (addFields new fields) := by
  unfold MaterialShader.addFields
  induction fields generalizing new with
  | nil => exact h
  | cons f rest ih => exact ih (h.addField List.not_mem_nil)

/-- A sweep adds fields that are missing in both sets. -/
theorem sweep (h : Extends under old new) :
    Extends under old (sweep under dependencies new) := by
  induction dependencies generalizing new with
  | nil => exact h
  | cons d rest ih =>
    rw [sweep_cons]
    apply ih
    unfold sweepStep
    split
    · next hcond =>
      obtain ⟨hunder, hnew⟩ := not_or.mp hcond.2
      exact h.add hnew hunder
    · exact h

theorem closeWithin (passes : Nat) (h : Extends under old new) :
    Extends under old (closeWithin under dependencies passes new) := by
  induction passes generalizing new with
  | zero => exact h
  | succ passes ih =>
    rw [ActiveFields.closeWithin]
    split
    · exact h
    · exact ih h.sweep

end Extends

theorem extends_close (under : List Field) (dependencies : List FieldDependency)
    (own : List Field) : Extends under own (close under dependencies own) :=
  Extends.refl.closeWithin _

end Extension

/-! ### One change -/

variable {a : ActiveFields} {c : FieldChange} {count index : Nat} {changes : List FieldChange}
  {f : Field}

/-- **What a change adds to the base** is new there.  The permutations play no part in it. -/
theorem extends_base_change (a : ActiveFields) (c : FieldChange) :
    Extends [] a.base (a.change c).base := by
  cases c with
  | addToBase fields => exact Extends.refl.addFields
  | addToPermutation i g =>
    rw [change, base_addToPermutation]
    exact .refl
  | propagate dependencies => exact extends_close [] dependencies a.base

/-- **What a change adds to a permutation** is new there, and it is not in the base either, as
the change leaves it. -/
theorem extends_own_change (a : ActiveFields) (c : FieldChange) (index : Nat) :
    Extends (a.change c).base (a.own index) ((a.change c).own index) := by
  cases c with
  | addToBase fields => exact .refl
  | addToPermutation i g =>
    by_cases hbase : g ∈ a.base
    · rw [change, addToPermutation, if_pos hbase]
      exact .refl
    · rw [change, base_addToPermutation, addToPermutation, if_neg hbase, own, own,
        List.getElem?_modify]
      cases a.permutations[index]? with
      | none => exact .refl
      | some own =>
        by_cases hi : i = index
        · simpa [hi] using Extends.refl.addField hbase
        · simpa [hi] using Extends.refl
  | propagate dependencies =>
    rw [change, own, own, propagate, List.getElem?_map]
    cases a.permutations[index]? with
    | none => exact .refl
    | some own => exact extends_close _ dependencies own

theorem mem_base_change_iff : f ∈ (a.change c).base ↔ f ∈ a.base ∨ c.GivesBase a f := by
  cases c with
  | addToBase fields => exact mem_base_addToBase
  | addToPermutation i g =>
    rw [change, base_addToPermutation]
    exact (or_iff_left id).symm
  | propagate dependencies =>
    exact mem_base_propagate_iff.trans (or_iff_right_of_imp .start).symm

/-- A change leaves a field in both places if it was in both before, or if it gives the base a
field of the permutation. -/
theorem mem_base_and_own_change_iff :
    f ∈ (a.change c).base ∧ f ∈ (a.change c).own index ↔
      f ∈ a.base ∧ f ∈ a.own index ∨ f ∈ a.own index ∧ c.GivesBase a f := by
  have hown := extends_own_change a c index
  constructor
  · rintro ⟨hbase, hnew⟩
    -- the permutation gets no field that the base has in the end, so it had this one before
    have hold : f ∈ a.own index := by
      by_contra h
      exact hown.notMem_under hnew h hbase
    rcases mem_base_change_iff.mp hbase with hf | hf
    · exact Or.inl ⟨hf, hold⟩
    · exact Or.inr ⟨hold, hf⟩
  · rintro (⟨hbase, hold⟩ | ⟨hold, hgives⟩)
    · exact ⟨mem_base_change_iff.mpr (Or.inl hbase), hown.subset hold⟩
    · exact ⟨mem_base_change_iff.mpr (Or.inr hgives), hown.subset hold⟩

/-! ### All changes -/

/-- The base never has a field twice. -/
theorem nodup_base_after (count : Nat) (changes : List FieldChange) :
    (after count changes).base.Nodup := by
  induction changes using List.reverseRecOn with
  | nil => exact List.nodup_nil
  | append_singleton changes c ih =>
    rw [after_append_singleton]
    exact (extends_base_change _ c).nodup ih

/-- The set of a permutation never has a field twice. -/
theorem nodup_own_after (count : Nat) (changes : List FieldChange) (index : Nat) :
    ((after count changes).own index).Nodup := by
  induction changes using List.reverseRecOn with
  | nil =>
    rw [after, List.foldl_nil, own_new]
    exact List.nodup_nil
  | append_singleton changes c ih =>
    rw [after_append_singleton]
    exact (extends_own_change _ c index).nodup ih

/-- One of the changes gives the base a field that a permutation has in its own set by then. -/
def IsOvertaken (count : Nat) (changes : List FieldChange) (index : Nat) (f : Field) : Prop :=
  ∃ earlier c later, changes = earlier ++ c :: later ∧
    f ∈ (after count earlier).own index ∧ c.GivesBase (after count earlier) f

theorem not_isOvertaken_nil : ¬IsOvertaken count [] index f := by
  rintro ⟨earlier, c, later, h, -⟩
  simp at h

theorem isOvertaken_append_singleton :
    IsOvertaken count (changes ++ [c]) index f ↔
      IsOvertaken count changes index f ∨
        f ∈ (after count changes).own index ∧ c.GivesBase (after count changes) f := by
  constructor
  · rintro ⟨earlier, d, later, hsplit, hown, hgives⟩
    -- the change that gives the field is the last one, or one before it
    rcases List.eq_nil_or_concat' later with rfl | ⟨later, e, rfl⟩
    · obtain ⟨rfl, hlast⟩ := List.append_inj' hsplit rfl
      obtain rfl := List.singleton_inj.mp hlast
      exact Or.inr ⟨hown, hgives⟩
    · rw [← List.cons_append, ← List.append_assoc] at hsplit
      obtain ⟨rfl, -⟩ := List.append_inj' hsplit rfl
      exact Or.inl ⟨earlier, d, later, rfl, hown, hgives⟩
  · rintro (⟨earlier, d, later, rfl, hown, hgives⟩ | ⟨hown, hgives⟩)
    · exact ⟨earlier, d, later ++ [c], List.append_assoc .., hown, hgives⟩
    · exact ⟨changes, c, [], rfl, hown, hgives⟩

/-- **A field is stored twice** exactly if some change gave it to the base when the permutation
had it already. -/
theorem mem_base_and_own_after_iff :
    f ∈ (after count changes).base ∧ f ∈ (after count changes).own index ↔
      IsOvertaken count changes index f := by
  induction changes using List.reverseRecOn with
  | nil => exact iff_of_false (fun h => List.not_mem_nil h.1) not_isOvertaken_nil
  | append_singleton changes c ih =>
    rw [after_append_singleton, mem_base_and_own_change_iff, ih, isOvertaken_append_singleton]

/-! ### What the instances list -/

theorem mem_allInstances {i : FieldInstance} :
    i ∈ a.allInstances ↔
      i = a.baseInstance ∨ ∃ index < a.permutationCount, ⟨some index, a.fieldsIn index⟩ = i := by
  rw [allInstances, List.mem_cons, layered_eq, List.mem_map]
  simp only [List.mem_range]

theorem count_fieldsIn (hbase : a.base.Nodup) (hown : (a.own index).Nodup)
    (hf : f ∈ a.fieldsIn index) :
    (a.fieldsIn index).count f = if f ∈ a.base ∧ f ∈ a.own index then 2 else 1 := by
  rw [fieldsIn, List.count_append, hbase.count, hown.count]
  rcases List.mem_append.mp hf with h | h
  · by_cases h' : f ∈ a.own index <;> simp [h, h']
  · by_cases h' : f ∈ a.base <;> simp [h, h']

/-- **How often the instances list a field**, after any changes.  Neither the base nor the set of
a permutation has a field twice.  A field is stored in the base and with a permutation exactly
if some change gave it to the base when the permutation had it already.  The instance of the
permutation then lists it twice; all other fields of all instances are listed once. -/
theorem count_fields_after (count : Nat) (changes : List FieldChange) :
    (after count changes).base.Nodup ∧
      (∀ own ∈ (after count changes).permutations, own.Nodup) ∧
      (∀ index f, f ∈ (after count changes).base ∧ f ∈ (after count changes).own index ↔
        IsOvertaken count changes index f) ∧
      ∀ i ∈ (after count changes).allInstances, ∀ f ∈ i.fields,
        ((∃ index ∈ i.permutation, IsOvertaken count changes index f) → i.fields.count f = 2) ∧
        ((¬∃ index ∈ i.permutation, IsOvertaken count changes index f) →
          i.fields.count f = 1) := by
  have hbase := nodup_base_after count changes
  refine ⟨hbase, ?_, fun index f => mem_base_and_own_after_iff, ?_⟩
  · intro own hown
    obtain ⟨index, hindex⟩ := List.mem_iff_getElem?.mp hown
    have hnodup := nodup_own_after count changes index
    rwa [ActiveFields.own, hindex] at hnodup
  · intro i hi f hf
    rcases mem_allInstances.mp hi with rfl | ⟨index, -, rfl⟩
    · -- the base has no set of its own beside it
      constructor
      · rintro ⟨index, hindex, -⟩
        cases hindex
      · intro _
        exact List.count_eq_one_of_mem hbase hf
    · have hcount := count_fieldsIn hbase (nodup_own_after count changes index) hf
      constructor
      · rintro ⟨index', hindex, h⟩
        obtain rfl : index = index' := Option.some.inj hindex
        exact hcount.trans (if_pos (mem_base_and_own_after_iff.mpr h))
      · intro h
        have honce : ¬IsOvertaken count changes index f := fun h' => h ⟨index, rfl, h'⟩
        exact hcount.trans (if_neg (mt mem_base_and_own_after_iff.mp honce))

/-- A permutation gets two fields.  One of them is added to the base after that, and the other
comes to the base by a dependency. -/
def lateChanges : List FieldChange :=
  [.addToBase [⟨"T.a"⟩], .addToPermutation 1 ⟨"T.b"⟩, .addToPermutation 1 ⟨"T.c"⟩,
    .addToBase [⟨"T.b"⟩, ⟨"T.a"⟩], .addToPermutation 0 ⟨"T.b"⟩,
    .propagate [⟨⟨"T.a"⟩, ⟨"T.c"⟩⟩]]

theorem count_fields_after_late :
    (after 2 lateChanges).allInstances =
        [⟨none, [⟨"T.a"⟩, ⟨"T.b"⟩, ⟨"T.c"⟩]⟩, ⟨some 0, [⟨"T.a"⟩, ⟨"T.b"⟩, ⟨"T.c"⟩]⟩,
          ⟨some 1, [⟨"T.a"⟩, ⟨"T.b"⟩, ⟨"T.c"⟩, ⟨"T.b"⟩, ⟨"T.c"⟩]⟩] ∧
      IsOvertaken 2 lateChanges 1 ⟨"T.b"⟩ ∧ IsOvertaken 2 lateChanges 1 ⟨"T.c"⟩ ∧
      ¬IsOvertaken 2 lateChanges 1 ⟨"T.a"⟩ ∧ ¬IsOvertaken 2 lateChanges 0 ⟨"T.b"⟩ ∧
      ∃ i ∈ (after 2 lateChanges).allInstances, i.permutation = some 1 ∧
        i.fields.count ⟨"T.c"⟩ = 2 ∧ i.fields.count ⟨"T.a"⟩ = 1 := by
  obtain ⟨-, -, hstored, hcount⟩ := count_fields_after 2 lateChanges
  have hc : IsOvertaken 2 lateChanges 1 ⟨"T.c"⟩ := (hstored 1 ⟨"T.c"⟩).mp (by decide)
  have ha : ¬IsOvertaken 2 lateChanges 1 ⟨"T.a"⟩ := mt (hstored 1 ⟨"T.a"⟩).mpr (by decide)
  have hi : ⟨some 1, [⟨"T.a"⟩, ⟨"T.b"⟩, ⟨"T.c"⟩, ⟨"T.b"⟩, ⟨"T.c"⟩]⟩ ∈
      (after 2 lateChanges).allInstances := by decide
  refine ⟨by decide, (hstored 1 ⟨"T.b"⟩).mp (by decide), hc, ha,
    mt (hstored 0 ⟨"T.b"⟩).mpr (by decide), _, hi, rfl, ?_, ?_⟩
  · exact (hcount _ hi ⟨"T.c"⟩ (by decide)).1 ⟨1, rfl, hc⟩
  · apply (hcount _ hi ⟨"T.a"⟩ (by decide)).2
    rintro ⟨index, hindex, h⟩
    obtain rfl : 1 = index := Option.some.inj hindex
    exact ha h

/-! ### The changes of a pass -/

/-- The active fields come about by changes. -/
def IsReached (count : Nat) (a : ActiveFields) : Prop :=
  ∃ changes, a = after count changes

namespace IsReached

theorem new (count : Nat) : IsReached count (new count) := ⟨[], rfl⟩

theorem change (h : IsReached count a) (c : FieldChange) : IsReached count (a.change c) := by
  obtain ⟨changes, rfl⟩ := h
  exact ⟨changes ++ [c], (after_append_singleton count changes c).symm⟩

/-- What a node switches on is added to the base, or field by field to its permutations. -/
theorem activate (h : IsReached count a) (n : LiveNode) (fields : List Field) :
    IsReached count (a.activate n fields) := by
  unfold ActiveFields.activate
  cases n.guard? a.permutationCount with
  | none => exact h.change (.addToBase fields)
  | some indices =>
    refine List.foldlRecOn fields _ h fun b hb f _ => ?_
    exact List.foldlRecOn indices _ hb fun b hb index _ => hb.change (.addToPermutation index f)

end IsReached

end ActiveFields

variable {g : Graph} {output : String} {slots : Option (List String)} {p : Pass} {mode : Mode}
  {ks : Keywords} {stage : Stage} {s : StageNodes} {a b : ActiveFields} {r : PassFields}
  {count : Nat}

theorem isReached_of_stageNodes (h : stageNodes g output slots ks stage a = .ok (s, b))
    (ha : a.IsReached count) : b.IsReached count := by
  obtain ⟨nodes, -, h⟩ := Outcome.bind_eq_ok_iff.mp h
  obtain ⟨⟨b', requirements⟩, hfold, h⟩ := Outcome.bind_eq_ok_iff.mp h
  obtain ⟨-, rfl⟩ := Prod.mk.inj (Outcome.pure_eq_ok_iff.mp h)
  refine Outcome.foldlM_invariant (fun _ state => state.1.IsReached count) ?_ ha hfold
  intro done state n state' _ hdone hstep
  obtain ⟨o, -, hstep⟩ := Outcome.bind_eq_ok_iff.mp hstep
  rw [← Outcome.pure_eq_ok_iff.mp hstep]
  exact hdone.activate n _

/-- **The fields of a pass come about by changes.** -/
theorem exists_after_of_passFields (h : passFields g output p mode ks = .ok r) :
    ∃ changes, r.active = .after ks.permutationCount changes := by
  obtain ⟨o, a, b, -, hvertex, hpixel, hactive⟩ := passFields_stages h
  have hstart : (startFields o p mode ks).IsReached ks.permutationCount :=
    (ActiveFields.IsReached.new _).change (.addToBase (seedFields o p mode))
  have ha : a.IsReached ks.permutationCount := by
    split at hvertex
    · exact isReached_of_stageNodes hvertex hstart
    · rw [hvertex.2]
      exact hstart
  rw [hactive]
  exact (isReached_of_stageNodes hpixel ha).change (.propagate p.fieldDependencies)

/-! ### A field that is overtaken -/

/-- The sum of two texture coordinates.  The one at `guarded` is read while a keyword is on, the
one at `plain` always. -/
def coordinateGraph (guarded plain : String) : Graph where
  version := "1"
  metadata := { name := "Coordinate" }
  nodes := [
    { id := "sum", type := "Add", inputs := [{ id := "A" }, { id := "B" }] },
    { id := "k", type := "Keyword", params := [("keyword", .text "_DETAIL")],
      inputs := [{ id := "On" }, { id := "Off" }] },
    { id := "near", type := "UV" },
    { id := "far", type := "UV" }]
  connections := [
    ⟨"c1", ⟨"k", "Out"⟩, ⟨"sum", guarded⟩⟩,
    ⟨"c2", ⟨"far", "Out"⟩, ⟨"sum", plain⟩⟩,
    ⟨"c3", ⟨"near", "Out"⟩, ⟨"k", "On"⟩⟩]
  keywords := [{ referenceName := "_DETAIL" }]

/-- **A pass may list a field twice.**  The walk meets the coordinate behind the keyword first,
so the field is stored with the permutation, and then in the base.  With the operands the other
way round the base has the field by then, and no instance lists a field twice. -/
theorem exists_field_listed_twice :
    let uv : Field := .ofTag "SurfaceDescriptionInputs" "uv0"
    let g := coordinateGraph "A" "B"
    let swapped := coordinateGraph "B" "A"
    (g.checked = .ok g ∧ ∃ r changes i, passFields g "sum" {} .final g.keywords = .ok r ∧
        r.active = .after g.keywords.permutationCount changes ∧
        uv ∈ r.active.base ∧ uv ∈ r.active.own 1 ∧ r.active.instance? 1 = some i ∧
        i ∈ r.active.allInstances ∧ i.fields = [.graphPixel, uv, uv] ∧ ¬i.fields.Nodup) ∧
      ∃ r, passFields swapped "sum" {} .final swapped.keywords = .ok r ∧
        ∀ i ∈ r.active.allInstances, i.fields.Nodup := by
  intro uv g swapped
  obtain ⟨r, hr, hactive⟩ : ∃ r, passFields g "sum" {} .final g.keywords = .ok r ∧
      decide (r.active = ⟨[.graphPixel, uv], [[], [uv]]⟩) = true :=
    Outcome.exists_of_check (by decide +kernel)
  obtain ⟨changes, hchanges⟩ := exists_after_of_passFields hr
  have hactive := of_decide_eq_true hactive
  refine ⟨⟨rfl, r, changes, ⟨some 1, [.graphPixel, uv, uv]⟩, hr, hchanges, ?_⟩, ?_⟩
  · rw [hactive]
    decide
  · obtain ⟨r, hr, hactive⟩ : ∃ r, passFields swapped "sum" {} .final swapped.keywords = .ok r ∧
        decide (r.active = ⟨[.graphPixel, uv], [[], []]⟩) = true :=
      Outcome.exists_of_check (by decide +kernel)
    refine ⟨r, hr, ?_⟩
    rw [of_decide_eq_true hactive]
    decide

end MaterialShader
