import Mathlib.Data.List.Infix
import MaterialShader.Field.Active

/-!
# Closure under field dependencies

The executable closure sweeps over the dependencies until a sweep adds nothing, with a
bound on the number of sweeps.  Here it is compared with the set it is meant to compute:
the least one that holds the given fields and is closed under the dependencies.

The bound never cuts the sweeps short.  A sweep that adds a field adds one that some
dependency asks for and that was missing before, so every sweep but the last shortens the
list of missing dependencies.

## Main definitions

* `ClosedUnder`, `FieldClosure` — closed sets and the least one above a set.
* `ActiveFields.HoldsIn` — a field is active in a permutation.

## Main results

* `mem_close_iff` — the executable closure is the least closed set.
* `mem_base_propagate_iff`, `holdsIn_propagate_iff` — the same for the base and for each
  permutation of a pass.
-/

namespace MaterialShader

/-! ### Closed sets -/

/-- While a field is in the set, so is every field it depends on. -/
def ClosedUnder (dependencies : List FieldDependency) (S : Field → Prop) : Prop :=
  ∀ d ∈ dependencies, S d.field → S d.dependsOn

/-- The least set that holds some fields and is closed under dependencies. -/
inductive FieldClosure (dependencies : List FieldDependency) (S : Field → Prop) : Field → Prop where
  /-- The fields it starts from. -/
  | start {f : Field} (h : S f) : FieldClosure dependencies S f
  /-- What a field of the set depends on. -/
  | step {d : FieldDependency} (hd : d ∈ dependencies)
      (h : FieldClosure dependencies S d.field) : FieldClosure dependencies S d.dependsOn

namespace FieldClosure

variable {dependencies : List FieldDependency} {S T : Field → Prop} {f : Field}

theorem closedUnder : ClosedUnder dependencies (FieldClosure dependencies S) :=
  fun _ hd h => .step hd h

/-- No closed set that holds the given fields is smaller. -/
theorem least (hT : ClosedUnder dependencies T) (hST : ∀ g, S g → T g)
    (h : FieldClosure dependencies S f) : T f := by
  induction h with
  | start h => exact hST _ h
  | step hd _ ih => exact hT _ hd ih

theorem mono (hST : ∀ g, S g → T g) (h : FieldClosure dependencies S f) :
    FieldClosure dependencies T f :=
  h.least closedUnder fun g hg => .start (hST g hg)

theorem congr (hST : ∀ g, S g ↔ T g) :
    FieldClosure dependencies S f ↔ FieldClosure dependencies T f :=
  ⟨mono fun g => (hST g).mp, mono fun g => (hST g).mpr⟩

/-- Closing a part of the fields beforehand changes nothing. -/
theorem or_closure_iff :
    FieldClosure dependencies (fun g => FieldClosure dependencies S g ∨ T g) f ↔
      FieldClosure dependencies (fun g => S g ∨ T g) f := by
  constructor
  · intro h
    refine h.least closedUnder fun g hg => ?_
    rcases hg with hS | hT
    · exact hS.mono fun _ => Or.inl
    · exact .start (Or.inr hT)
  · exact mono fun _ => Or.imp_left .start

end FieldClosure

namespace ActiveFields

section Close

variable {under own own' : List Field} {dependencies : List FieldDependency} {S : Field → Prop}

/-! ### One sweep -/

/-- The fields after one dependency of a sweep. -/
def sweepStep (under own : List Field) (d : FieldDependency) : List Field :=
  if (d.field ∈ under ∨ d.field ∈ own) ∧ ¬(d.dependsOn ∈ under ∨ d.dependsOn ∈ own) then
    own ++ [d.dependsOn]
  else own

theorem sweep_cons (d : FieldDependency) :
    sweep under (d :: dependencies) own = sweep under dependencies (sweepStep under own d) := rfl

theorem prefix_sweepStep (d : FieldDependency) : own <+: sweepStep under own d := by
  unfold sweepStep
  split
  · exact List.prefix_append _ _
  · exact List.prefix_rfl

theorem prefix_sweep : own <+: sweep under dependencies own := by
  induction dependencies generalizing own with
  | nil => exact List.prefix_rfl
  | cons d rest ih => exact (prefix_sweepStep d).trans ih

/-- A sweep stays inside every closed set it starts in. -/
theorem sweep_subset (hS : ClosedUnder dependencies S) (hunder : ∀ f ∈ under, S f)
    (hown : ∀ f ∈ own, S f) : ∀ f ∈ sweep under dependencies own, S f := by
  induction dependencies generalizing own with
  | nil => exact hown
  | cons d rest ih =>
    refine ih (fun e he => hS e (List.mem_cons_of_mem _ he)) ?_
    change ∀ f ∈ sweepStep under own d, S f
    unfold sweepStep
    split
    · next hcond =>
      intro f hf
      rcases List.mem_append.mp hf with hf | hf
      · exact hown f hf
      · rw [List.mem_singleton.mp hf]
        exact hS d List.mem_cons_self (hcond.1.elim (hunder _) (hown _))
    · exact hown

/-- A sweep that adds nothing has found the set closed. -/
theorem closedUnder_of_sweep_eq (h : sweep under dependencies own = own) :
    ClosedUnder dependencies fun f => f ∈ under ∨ f ∈ own := by
  induction dependencies with
  | nil => intro d hd; simp at hd
  | cons d rest ih =>
    rw [sweep_cons] at h
    -- the step and the sweep after it only add at the end, so neither adds here
    have hstep : sweepStep under own d = own := by
      have h₁ : own <+: sweepStep under own d := prefix_sweepStep d
      have h₂ : sweepStep under own d <+: sweep under rest (sweepStep under own d) := prefix_sweep
      rw [h] at h₂
      exact (h₁.eq_of_length_le h₂.length_le).symm
    rw [hstep] at h
    intro e he
    rcases List.mem_cons.mp he with rfl | he
    · intro hfield
      by_contra hdepends
      rw [sweepStep, if_pos ⟨hfield, hdepends⟩] at hstep
      simp at hstep
    · exact ih h e he

/-! ### The number of sweeps -/

/-- The dependencies whose second field is not there. -/
def missing (under : List Field) (dependencies : List FieldDependency) (own : List Field) :
    List FieldDependency :=
  dependencies.filter fun d => decide ¬(d.dependsOn ∈ under ∨ d.dependsOn ∈ own)

theorem mem_missing {d : FieldDependency} :
    d ∈ missing under dependencies own ↔
      d ∈ dependencies ∧ ¬(d.dependsOn ∈ under ∨ d.dependsOn ∈ own) := by
  rw [missing, List.mem_filter, decide_eq_true_eq]

theorem missing_eq_filter (h : own <+: own') :
    missing under dependencies own' =
      (missing under dependencies own).filter fun d =>
        decide ¬(d.dependsOn ∈ under ∨ d.dependsOn ∈ own') := by
  rw [missing, missing, List.filter_filter]
  refine List.filter_congr fun d _ => ?_
  have hsub : d.dependsOn ∈ own → d.dependsOn ∈ own' := fun hd => h.subset hd
  rw [Bool.eq_iff_iff, Bool.and_eq_true, decide_eq_true_eq, decide_eq_true_eq]
  tauto

/-- A sweep adds nothing, or it adds a field that was missing. -/
theorem sweep_eq_or_exists_missing (under : List Field) (dependencies : List FieldDependency)
    (own : List Field) :
    sweep under dependencies own = own ∨
      ∃ d ∈ missing under dependencies own, d.dependsOn ∈ sweep under dependencies own := by
  induction dependencies with
  | nil => exact Or.inl rfl
  | cons d rest ih =>
    rw [sweep_cons]
    by_cases hcond : (d.field ∈ under ∨ d.field ∈ own) ∧ ¬(d.dependsOn ∈ under ∨ d.dependsOn ∈ own)
    · have hadded : d.dependsOn ∈ sweepStep under own d := by
        rw [sweepStep, if_pos hcond]
        exact List.mem_append_right _ (List.mem_singleton_self _)
      exact Or.inr ⟨d, mem_missing.mpr ⟨List.mem_cons_self, hcond.2⟩, prefix_sweep.subset hadded⟩
    · rw [sweepStep, if_neg hcond]
      refine ih.imp_right fun ⟨e, he, hadded⟩ => ⟨e, ?_, hadded⟩
      obtain ⟨he, hmissing⟩ := mem_missing.mp he
      exact mem_missing.mpr ⟨List.mem_cons_of_mem _ he, hmissing⟩

/-- A sweep that adds a field shortens the list of missing dependencies. -/
theorem length_missing_sweep_lt (h : (sweep under dependencies own).length ≠ own.length) :
    (missing under dependencies (sweep under dependencies own)).length <
      (missing under dependencies own).length := by
  rw [missing_eq_filter prefix_sweep, List.length_filter_lt_length_iff_exists]
  rcases sweep_eq_or_exists_missing under dependencies own with heq | ⟨d, hd, hadded⟩
  · rw [heq] at h
    exact absurd rfl h
  · exact ⟨d, hd, by simp [hadded]⟩

/-! ### The closure -/

theorem prefix_closeWithin (passes : Nat) :
    own <+: closeWithin under dependencies passes own := by
  induction passes generalizing own with
  | zero => exact List.prefix_rfl
  | succ passes ih =>
    rw [closeWithin]
    split
    · exact List.prefix_rfl
    · exact prefix_sweep.trans ih

theorem prefix_close : own <+: close under dependencies own := prefix_closeWithin _

theorem closeWithin_subset (passes : Nat) (hS : ClosedUnder dependencies S)
    (hunder : ∀ f ∈ under, S f) (hown : ∀ f ∈ own, S f) :
    ∀ f ∈ closeWithin under dependencies passes own, S f := by
  induction passes generalizing own with
  | zero => exact hown
  | succ passes ih =>
    rw [closeWithin]
    split
    · exact hown
    · exact ih (sweep_subset hS hunder hown)

/-- As many sweeps as there are missing dependencies, and one more, close the set. -/
theorem closedUnder_closeWithin (passes : Nat)
    (h : (missing under dependencies own).length < passes) :
    ClosedUnder dependencies fun f =>
      f ∈ under ∨ f ∈ closeWithin under dependencies passes own := by
  induction passes generalizing own with
  | zero => omega
  | succ passes ih =>
    rw [closeWithin]
    split
    · next hlength =>
      exact closedUnder_of_sweep_eq (prefix_sweep.eq_of_length hlength.symm).symm
    · next hlength =>
      refine ih ?_
      have := length_missing_sweep_lt hlength
      omega

theorem closedUnder_close :
    ClosedUnder dependencies fun f => f ∈ under ∨ f ∈ close under dependencies own := by
  refine closedUnder_closeWithin _ ?_
  have : (missing under dependencies own).length ≤ dependencies.length := List.length_filter_le _ _
  omega

/-- **The executable closure is the least closed set.** -/
theorem mem_close_iff {f : Field} :
    f ∈ under ∨ f ∈ close under dependencies own ↔
      FieldClosure dependencies (fun g => g ∈ under ∨ g ∈ own) f := by
  constructor
  · intro h
    rcases h with h | h
    · exact .start (Or.inl h)
    · exact closeWithin_subset _ FieldClosure.closedUnder (fun g hg => .start (Or.inl hg))
        (fun g hg => .start (Or.inr hg)) f h
  · exact FieldClosure.least closedUnder_close fun g =>
      Or.imp_right fun hg => prefix_close.subset hg

end Close

/-! ### The sets of a pass -/

variable {a : ActiveFields} {dependencies : List FieldDependency} {index : Nat} {f : Field}

/-- The fields of a permutation's own set. -/
def own (a : ActiveFields) (index : Nat) : List Field := a.permutations[index]?.getD []

theorem own_new (count index : Nat) : (new count).own index = [] := by
  unfold new own
  split
  · rw [List.getElem?_replicate]
    split <;> rfl
  · rfl

/-- A field is active in a permutation: in the base or in its own set. -/
def HoldsIn (a : ActiveFields) (index : Nat) (f : Field) : Prop := f ∈ a.base ∨ f ∈ a.own index

/-- For a permutation that there is, its instance lists the fields that hold in it. -/
theorem exists_instance?_iff (h : index < a.permutationCount) :
    ∃ i, a.instance? index = some i ∧ ∀ f, f ∈ i.fields ↔ a.HoldsIn index f := by
  have hget : a.permutations[index]? = some a.permutations[index] := List.getElem?_eq_getElem h
  refine ⟨⟨some index, a.base ++ a.permutations[index]⟩, by rw [instance?, hget]; rfl, ?_⟩
  intro f
  rw [HoldsIn, own, hget]
  exact List.mem_append

theorem permutationCount_propagate :
    (a.propagate dependencies).permutationCount = a.permutationCount := List.length_map _

theorem mem_base_propagate_iff :
    f ∈ (a.propagate dependencies).base ↔ FieldClosure dependencies (· ∈ a.base) f := by
  have h : f ∈ [] ∨ f ∈ close [] dependencies a.base ↔
      FieldClosure dependencies (fun g => g ∈ [] ∨ g ∈ a.base) f := mem_close_iff
  simp only [List.not_mem_nil, false_or] at h
  exact h

/-- Closing a permutation on top of the closed base is closing it on top of the base. -/
theorem holdsIn_propagate_iff (h : index < a.permutationCount) :
    (a.propagate dependencies).HoldsIn index f ↔ FieldClosure dependencies (a.HoldsIn index) f := by
  have hown : (a.propagate dependencies).own index =
      close (a.propagate dependencies).base dependencies (a.own index) := by
    have hget : a.permutations[index]? = some a.permutations[index] := List.getElem?_eq_getElem h
    rw [own, own, propagate, List.getElem?_map, hget]
    rfl
  rw [HoldsIn, hown, mem_close_iff]
  calc FieldClosure dependencies
          (fun g => g ∈ (a.propagate dependencies).base ∨ g ∈ a.own index) f
      ↔ FieldClosure dependencies
          (fun g => FieldClosure dependencies (· ∈ a.base) g ∨ g ∈ a.own index) f :=
        FieldClosure.congr fun g => or_congr_left mem_base_propagate_iff
    _ ↔ FieldClosure dependencies (a.HoldsIn index) f := FieldClosure.or_closure_iff

end ActiveFields
end MaterialShader
