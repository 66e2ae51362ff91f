import Mathlib.Data.List.Forall2
import Mathlib.Order.Bounds.Defs
import MaterialShader.Proofs.FieldActivity

/-!
# Propagation of fields

The fields of a pass are propagated along its dependencies by loops that sweep over them as long
as a sweep adds something: one loop for the base, then one for each permutation, which sees the
base that the first one leaves.  The sweeps are counted only so that the recursion is seen to
end.  Here the loops are given without a count, and each of them comes to its end.

What they end with depends on the dependencies as a set, and on nothing else.  Both are clear
from the closure that the sweeps compute, which speaks of neither sweeps nor order.

## Main definitions

* `ActiveFields.SweepsTo` — the loop of sweeps, without a count.
* `closedAbove` — the closed sets that hold some fields.

## Main results

* `ActiveFields.sweepsTo_close` — the loop ends, with the executable closure.
* `ActiveFields.close_eq_self` — a closed set is left as it is.
* `ActiveFields.propagate_spec` — what propagation does to all fields of a pass.
-/

namespace MaterialShader

/-! ### Closed sets above some fields -/

/-- The closed sets that hold some fields. -/
def closedAbove (dependencies : List FieldDependency) (fields : List Field) : Set (Set Field) :=
  {S | (∀ f ∈ fields, f ∈ S) ∧ ClosedUnder dependencies (· ∈ S)}

/-- The closure of some fields is the least of the closed sets that hold them. -/
theorem isLeast_closedAbove {dependencies : List FieldDependency} {old new : List Field}
    (h : ∀ f, f ∈ new ↔ FieldClosure dependencies (· ∈ old) f) :
    IsLeast (closedAbove dependencies old) {f | f ∈ new} := by
  constructor
  · refine ⟨fun f hf => (h f).mpr (.start hf), fun d hd hfield => ?_⟩
    exact (h _).mpr (.step hd ((h _).mp hfield))
  · intro S hS f hf
    exact ((h f).mp hf).least hS.2 hS.1

/-- More dependencies close no less. -/
theorem FieldClosure.mono_dependencies {dependencies others : List FieldDependency} {S : Field → Prop}
    {f : Field} (h : FieldClosure dependencies S f) (hsub : dependencies ⊆ others) :
    FieldClosure others S f := by
  induction h with
  | start h => exact .start h
  | step hd _ ih => exact .step (hsub hd) ih

namespace ActiveFields

section Loop

variable {under own : List Field} {dependencies : List FieldDependency}

/-! ### The loop of sweeps -/

/-- The loop sweeps over the dependencies until a sweep adds nothing. -/
inductive SweepsTo (under : List Field) (dependencies : List FieldDependency) :
    List Field → List Field → Prop where
  /-- The sweep has added nothing, so it was the last. -/
  | done {own : List Field} (h : sweep under dependencies own = own) :
      SweepsTo under dependencies own own
  /-- The sweep has added something, so the loop goes on. -/
  | again {own result : List Field} (h : sweep under dependencies own ≠ own)
      (hrest : SweepsTo under dependencies (sweep under dependencies own) result) :
      SweepsTo under dependencies own result

/-- The count does not cut the loop short if it starts above the number of missing
dependencies. -/
theorem sweepsTo_closeWithin (passes : Nat) (h : (missing under dependencies own).length < passes) :
    SweepsTo under dependencies own (closeWithin under dependencies passes own) := by
  induction passes generalizing own with
  | zero => omega
  | succ passes ih =>
    rw [closeWithin]
    split
    · next hlength =>
      exact .done (prefix_sweep.eq_of_length hlength.symm).symm
    · next hlength =>
      refine .again (fun heq => hlength (congrArg List.length heq)) (ih ?_)
      have := length_missing_sweep_lt hlength
      omega

/-- **The loop ends**, with the executable closure. -/
theorem sweepsTo_close (under : List Field) (dependencies : List FieldDependency)
    (own : List Field) : SweepsTo under dependencies own (close under dependencies own) := by
  refine sweepsTo_closeWithin _ ?_
  have : (missing under dependencies own).length ≤ dependencies.length := List.length_filter_le _ _
  omega

/-! ### A second closure -/

/-- There is nothing to add to a closed set. -/
theorem sweep_eq_self (h : ClosedUnder dependencies fun f => f ∈ under ∨ f ∈ own) :
    sweep under dependencies own = own := by
  induction dependencies with
  | nil => rfl
  | cons d rest ih =>
    obtain ⟨hd, hrest⟩ := List.forall_mem_cons.mp h
    have hstep : sweepStep under own d = own := if_neg fun hcond => hcond.2 (hd hcond.1)
    rw [sweep_cons, hstep]
    exact ih hrest

/-- A closed set is left as it is. -/
theorem close_eq_self (h : ClosedUnder dependencies fun f => f ∈ under ∨ f ∈ own) :
    close under dependencies own = own := by
  rw [close, closeWithin]
  exact if_pos (congrArg List.length (sweep_eq_self h))

end Loop

/-! ### All instances -/

variable {a b : ActiveFields} {dependencies others : List FieldDependency} {index : Nat} {f : Field}

/-- The instances of two sets with equally many permutations are related one by one. -/
theorem forall₂_allInstances {R : FieldInstance → FieldInstance → Prop}
    (hcount : a.permutationCount = b.permutationCount) (hbase : R a.baseInstance b.baseInstance)
    (hlayered : ∀ index < a.permutationCount,
      R ⟨some index, a.fieldsIn index⟩ ⟨some index, b.fieldsIn index⟩) :
    List.Forall₂ R a.allInstances b.allInstances := by
  refine .cons hbase ?_
  rw [layered_eq, layered_eq, ← hcount, List.forall₂_map_left_iff, List.forall₂_map_right_iff,
    List.forall₂_same]
  exact fun index hindex => hlayered index (List.mem_range.mp hindex)

theorem mem_fieldsIn_propagate_iff (h : index < a.permutationCount) :
    f ∈ (a.propagate dependencies).fieldsIn index ↔
      FieldClosure dependencies (· ∈ a.fieldsIn index) f := by
  rw [mem_fieldsIn, holdsIn_propagate_iff h]
  exact FieldClosure.congr fun g => mem_fieldsIn.symm

/-- A second propagation finds nothing to add. -/
theorem propagate_propagate (a : ActiveFields) (dependencies : List FieldDependency) :
    (a.propagate dependencies).propagate dependencies = a.propagate dependencies := by
  have hbase : close [] dependencies (a.propagate dependencies).base =
      (a.propagate dependencies).base := close_eq_self closedUnder_close
  have hpermutations : (a.propagate dependencies).permutations.map
      (close (a.propagate dependencies).base dependencies) =
        (a.propagate dependencies).permutations := by
    refine (List.map_congr_left fun own hown => ?_).trans (List.map_id _)
    obtain ⟨before, -, rfl⟩ := List.mem_map.mp hown
    exact close_eq_self closedUnder_close
  calc (a.propagate dependencies).propagate dependencies
      = ⟨close [] dependencies (a.propagate dependencies).base,
          (a.propagate dependencies).permutations.map
            (close (close [] dependencies (a.propagate dependencies).base) dependencies)⟩ := rfl
    _ = a.propagate dependencies := by rw [hbase, hpermutations]

/-- Which fields are active does not depend on the order of the dependencies. -/
theorem forall₂_propagate_of_perm (a : ActiveFields) (h : dependencies.Perm others) :
    List.Forall₂ (fun i j => i.permutation = j.permutation ∧ ∀ f, f ∈ i.fields ↔ f ∈ j.fields)
      (a.propagate dependencies).allInstances (a.propagate others).allInstances := by
  have hclosure : ∀ S f, FieldClosure dependencies S f ↔ FieldClosure others S f := fun S f =>
    ⟨fun hf => hf.mono_dependencies h.subset, fun hf => hf.mono_dependencies h.symm.subset⟩
  refine forall₂_allInstances ?_ ⟨rfl, fun f => ?_⟩ fun index hindex => ⟨rfl, fun f => ?_⟩
  · rw [permutationCount_propagate, permutationCount_propagate]
  · exact (mem_base_propagate_iff.trans (hclosure _ f)).trans mem_base_propagate_iff.symm
  · rw [permutationCount_propagate] at hindex
    exact ((mem_fieldsIn_propagate_iff hindex).trans (hclosure _ f)).trans
      (mem_fieldsIn_propagate_iff hindex).symm

/-- **Propagation of the fields of a pass**, whatever the dependencies are.  The loops over the
base and over the permutations end.  Every instance becomes the least set above what it was that
is closed under the dependencies; fields that were there stay in front, in their order.  A
second propagation changes nothing, and the order of the dependencies does not matter to which
fields are active. -/
theorem propagate_spec (a : ActiveFields) (dependencies : List FieldDependency) :
    (SweepsTo [] dependencies a.base (a.propagate dependencies).base ∧
        List.Forall₂ (SweepsTo (a.propagate dependencies).base dependencies)
          a.permutations (a.propagate dependencies).permutations) ∧
      List.Forall₂ (fun old new => old.permutation = new.permutation ∧
          IsLeast (closedAbove dependencies old.fields) {f | f ∈ new.fields})
        a.allInstances (a.propagate dependencies).allInstances ∧
      (a.base <+: (a.propagate dependencies).base ∧
        List.Forall₂ (· <+: ·) a.permutations (a.propagate dependencies).permutations) ∧
      (a.propagate dependencies).propagate dependencies = a.propagate dependencies ∧
      ∀ others, dependencies.Perm others →
        List.Forall₂
          (fun i j => i.permutation = j.permutation ∧ ∀ f, f ∈ i.fields ↔ f ∈ j.fields)
          (a.propagate dependencies).allInstances (a.propagate others).allInstances := by
  refine ⟨⟨sweepsTo_close _ _ _, ?_⟩, ?_, ⟨prefix_close, ?_⟩, propagate_propagate a dependencies,
    fun others h => forall₂_propagate_of_perm a h⟩
  · exact List.forall₂_map_right_iff.mpr
      (List.forall₂_same.mpr fun own _ => sweepsTo_close _ _ own)
  · refine forall₂_allInstances permutationCount_propagate.symm ⟨rfl, ?_⟩ fun index hindex =>
      ⟨rfl, ?_⟩
    · exact isLeast_closedAbove fun f => mem_base_propagate_iff
    · exact isLeast_closedAbove fun f => mem_fieldsIn_propagate_iff hindex
  · exact List.forall₂_map_right_iff.mpr (List.forall₂_same.mpr fun own _ => prefix_close)

/-- A circle, one of its dependencies twice, a field that depends on itself, and a chain that is
listed from its end. -/
def circularDependencies : List FieldDependency :=
  [⟨⟨"T.a"⟩, ⟨"T.b"⟩⟩, ⟨⟨"T.b"⟩, ⟨"T.a"⟩⟩, ⟨⟨"T.a"⟩, ⟨"T.b"⟩⟩, ⟨⟨"T.b"⟩, ⟨"T.c"⟩⟩,
    ⟨⟨"T.c"⟩, ⟨"T.c"⟩⟩, ⟨⟨"T.e"⟩, ⟨"T.f"⟩⟩, ⟨⟨"T.d"⟩, ⟨"T.e"⟩⟩]

/-- A field of the circle in the base, and the beginning of the chain in the second of two
permutations. -/
def circularFields : ActiveFields := ⟨[⟨"T.b"⟩], [[], [⟨"T.d"⟩]]⟩

theorem propagate_spec_circular :
    circularFields.propagate circularDependencies =
        ⟨[⟨"T.b"⟩, ⟨"T.a"⟩, ⟨"T.c"⟩], [[], [⟨"T.d"⟩, ⟨"T.e"⟩, ⟨"T.f"⟩]]⟩ ∧
      circularFields.propagate circularDependencies.reverse =
        ⟨[⟨"T.b"⟩, ⟨"T.c"⟩, ⟨"T.a"⟩], [[], [⟨"T.d"⟩, ⟨"T.e"⟩, ⟨"T.f"⟩]]⟩ ∧
      circularDependencies.Perm circularDependencies.reverse ∧
      List.Forall₂ (fun i j => i.permutation = j.permutation ∧ ∀ f, f ∈ i.fields ↔ f ∈ j.fields)
        (circularFields.propagate circularDependencies).allInstances
        (circularFields.propagate circularDependencies.reverse).allInstances := by
  have hperm : circularDependencies.Perm circularDependencies.reverse :=
    (List.reverse_perm _).symm
  obtain ⟨-, -, -, -, horder⟩ := propagate_spec circularFields circularDependencies
  exact ⟨by decide, by decide, hperm, horder _ hperm⟩

end ActiveFields
end MaterialShader
