import Mathlib.Data.List.Nodup
import MaterialShader.Proofs.InputText
import MaterialShader.Proofs.NodeStatement
import MaterialShader.Shader.Sections

/-!
# Helper functions

Sums and products are computed by helper functions, one for each operator and type.  A pass
collects those that the live nodes of its stages call, and each is listed with the first node
that calls it.

## Main results

* `collectHelpers_spec` — the helpers after a stage.
* `count_passHelpers` — a helper that a live node calls is defined once in a pass.
* `Operation.Computes.helper?_of_call` — a statement calls the helper its node asks for.
-/

namespace MaterialShader

open Shading (ValueType Expr Statement Helper)

/-! ### Definitions of helpers -/

theorem Shading.Helper.name_injective : Function.Injective Helper.name := by
  rintro ⟨operator, type⟩ ⟨operator', type'⟩ h
  revert h
  cases operator <;> cases type <;> cases operator' <;> cases type' <;> decide

namespace Shading

variable {helpers : List Helper} {k : Helper}

theorem nodup_addHelper (h : helpers.Nodup) : (addHelper helpers k).Nodup := by
  unfold addHelper
  split
  · exact h
  · next hk => exact List.nodup_append'.mpr ⟨h, List.nodup_singleton k, by simpa using hk⟩

theorem mem_addHelper {j : Helper} : j ∈ addHelper helpers k ↔ j ∈ helpers ∨ j = k := by
  unfold addHelper
  split
  · next hk =>
    refine ⟨Or.inl, fun h => h.elim id ?_⟩
    rintro rfl
    exact hk
  · rw [List.mem_append, List.mem_singleton]

end Shading

namespace Shading

/-- The line that a helper function is defined by. -/
def Helper.signature (k : Helper) : String :=
  "void " ++ k.name ++ "(" ++ k.type.name ++ " A, " ++ k.type.name ++ " B, out " ++ k.type.name ++
    " Out)"

theorem Helper.count_signature (j k : Helper) :
    (Code.textLines j.code).count k.signature = if j = k then 1 else 0 := by
  obtain ⟨operator, type⟩ := j
  obtain ⟨operator', type'⟩ := k
  cases operator <;> cases type <;> cases operator' <;> cases type' <;> decide

theorem textLines_helpersCode (helpers : List Helper) :
    Code.textLines (helpersCode helpers) = helpers.flatMap fun k => Code.textLines k.code := by
  have hparts : ∀ parts : List (List Code), Code.textLines (parts.intersperse [.newline]).flatten =
      parts.flatMap Code.textLines := by
    intro parts
    induction parts with
    | nil => rfl
    | cons part rest ih =>
      cases rest with
      | nil => simp
      | cons next rest =>
        rw [List.intersperse_cons_cons, List.flatten_cons, List.flatten_cons, Code.textLines_append,
          Code.textLines_append, ih]
        rfl
  rw [helpersCode, hparts, List.flatMap_map]

/-- The definitions of helpers have the line of each as often as it is listed. -/
theorem count_signature_helpersCode (helpers : List Helper) (k : Helper) :
    (Code.textLines (helpersCode helpers)).count k.signature = helpers.count k := by
  rw [textLines_helpersCode]
  induction helpers with
  | nil => rfl
  | cons j rest ih =>
    rw [List.flatMap_cons, List.count_append, Helper.count_signature, ih, List.count_cons]
    by_cases hjk : j = k
    · rw [if_pos hjk, if_pos (by simpa using hjk), Nat.add_comm]
    · rw [if_neg hjk, if_neg (by simpa using hjk), Nat.zero_add, Nat.add_zero]

end Shading

/-- The helpers after a stage are all different; none is lost, and those that live nodes call
are there. -/
theorem collectHelpers_spec {g : Graph} {s : StageNodes} {helpers after : List Helper}
    (h : collectHelpers g s helpers = .ok after) (hnodup : helpers.Nodup) :
    after.Nodup ∧ helpers ⊆ after ∧ ∀ n ∈ s.nodes, n.isLive = true → ∀ o k,
      g.operation n.id = .ok o → o.helper? g = .ok (some k) → k ∈ after := by
  have hloop := Outcome.foldlM_invariant (fun (done : List LiveNode) (state : List Helper) =>
      state.Nodup ∧ helpers ⊆ state ∧ ∀ n ∈ done, ∀ o k,
        g.operation n.id = .ok o → o.helper? g = .ok (some k) → k ∈ state)
    ?_ ⟨hnodup, List.Subset.refl _, List.forall_mem_nil _⟩ h
  · obtain ⟨hafter, hsubset, hcalled⟩ := hloop
    exact ⟨hafter, hsubset, fun n hn hlive => hcalled n (List.mem_filter.mpr ⟨hn, hlive⟩)⟩
  · intro done state n state' _ hdone hstep
    obtain ⟨hstate, hsubset, hcalled⟩ := hdone
    obtain ⟨o, ho, hstep⟩ := Outcome.bind_eq_ok_iff.mp hstep
    obtain ⟨called, hcalled', hstep⟩ := Outcome.bind_eq_ok_iff.mp hstep
    have hnew : ∀ o' k, g.operation n.id = .ok o' → o'.helper? g = .ok (some k) →
        called = some k := by
      intro o' k ho' hk
      obtain rfl : o = o' := Except.ok.inj (ho.symm.trans ho')
      exact Except.ok.inj (hcalled'.symm.trans hk)
    cases called with
    | none =>
      rw [← Outcome.pure_eq_ok_iff.mp hstep]
      refine ⟨hstate, hsubset, fun m hm o' k ho' hk => ?_⟩
      rcases List.mem_append.mp hm with hm | hm
      · exact hcalled m hm o' k ho' hk
      · rw [List.mem_singleton.mp hm] at ho'
        exact absurd (hnew o' k ho' hk) (by rintro ⟨⟩)
    | some j =>
      rw [← Outcome.pure_eq_ok_iff.mp hstep]
      refine ⟨Shading.nodup_addHelper hstate,
        fun k hk => Shading.mem_addHelper.mpr (Or.inl (hsubset hk)), fun m hm o' k ho' hk => ?_⟩
      rcases List.mem_append.mp hm with hm | hm
      · exact Shading.mem_addHelper.mpr (Or.inl (hcalled m hm o' k ho' hk))
      · rw [List.mem_singleton.mp hm] at ho'
        exact Shading.mem_addHelper.mpr (Or.inr (Option.some.inj (hnew o' k ho' hk)).symm)

/-- **A helper function that a live node calls is defined once** in a pass. -/
theorem count_passHelpers {g : Graph} {r : PassFields} {helpers : List Helper}
    (h : passHelpers g r = .ok helpers) {stage : Stage} {n : LiveNode}
    (hn : n ∈ (r.stage stage).nodes) (hlive : n.isLive = true) {o : Operation} {k : Helper}
    (ho : g.operation n.id = .ok o) (hk : o.helper? g = .ok (some k)) :
    (Code.textLines (Shading.helpersCode helpers)).count k.signature = 1 ∧
      (helpers.map Helper.name).count k.name = 1 := by
  obtain ⟨vertex, hvertex, hpixel⟩ := Outcome.bind_eq_ok_iff.mp h
  obtain ⟨hvertexNodup, -, hvertexCalled⟩ := collectHelpers_spec hvertex List.nodup_nil
  obtain ⟨hnodup, hsubset, hpixelCalled⟩ := collectHelpers_spec hpixel hvertexNodup
  have hmem : k ∈ helpers := by
    cases stage with
    | vertex => exact hsubset (hvertexCalled n hn hlive o k ho hk)
    | pixel => exact hpixelCalled n hn hlive o k ho hk
  rw [Shading.count_signature_helpersCode]
  refine ⟨List.count_eq_one_of_mem hnodup hmem, ?_⟩
  exact List.count_eq_one_of_mem (hnodup.map Shading.Helper.name_injective)
    (List.mem_map_of_mem hmem)

/-- The helper function that a statement calls is the one that its node asks for. -/
theorem Operation.Computes.helper?_of_call {e : Evaluation} {o : Operation}
    {statements : List Statement} (h : o.Computes e statements) {k : Helper} {left right : Expr}
    {result : String} (hcall : .call k left right result ∈ statements) :
    o.helper? e.graph = .ok (some k) := by
  cases h with
  | @operator op type _ _ hop htype hleft hright =>
    obtain rfl : k = ⟨op, type⟩ := by
      rcases List.mem_cons.mp hcall with hcall | hcall
      · exact absurd hcall (by rintro ⟨⟩)
      · exact (Statement.call.inj (List.mem_singleton.mp hcall)).1
    rw [helper?, hop]
    exact Outcome.bind_eq_ok_iff.mpr ⟨type, htype, rfl⟩
  | time hkind =>
    obtain ⟨p, -, hp⟩ := List.mem_map.mp hcall
    exact absurd hp (by rintro ⟨⟩)
  | texture hkind huv =>
    rcases List.mem_cons.mp hcall with hp | hp
    · exact absurd hp (by rintro ⟨⟩)
    · obtain ⟨c, -, hp⟩ := List.mem_map.mp hp
      exact absurd hp (by rintro ⟨⟩)
  | master hkind => exact absurd hcall List.not_mem_nil
  | constant hvalue => exact absurd (List.mem_singleton.mp hcall) (by rintro ⟨⟩)
  | geometry hinput => exact absurd (List.mem_singleton.mp hcall) (by rintro ⟨⟩)
  | scene hbuffer huv => exact absurd (List.mem_singleton.mp hcall) (by rintro ⟨⟩)
  | keyword hkind hk htype hvalue => exact absurd (List.mem_singleton.mp hcall) (by rintro ⟨⟩)

end MaterialShader
