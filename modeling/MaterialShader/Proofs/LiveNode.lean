import Mathlib.Data.List.Induction
import MaterialShader.Proofs.Outcome
import MaterialShader.Proofs.WalkOrder
import MaterialShader.Stage.Live

/-!
# Where nodes are live

A node of a stage carries the permutations it is live in.  Each visit of a walk adds one, and a walk
visits no node twice.  So the list is cut out of the range of all permutations, its length alone
tells whether the node is live everywhere, and the guard of its code is left out exactly then.

## Main definitions

* `LiveNode.LiveIn` — the node is live in a permutation.
* `LiveNode.IsSpread` — the permutations of a node are cut out of a range.

## Main results

* `guard?_eq_none_iff`, `mem_of_guard?_eq_some` — what the guard of a node says.
* `livePermutations_eq_filter` — the permutations of a node are cut out of the range.
* `liveNodes_spec` — the nodes of a stage are those of its walk, each live in the
  permutations whose own walks reach it.
-/

namespace MaterialShader

namespace LiveNode

variable {id : String} {n : LiveNode} {count index : Nat} {indices : List Nat}

/-- The node is live in a permutation.  Where there are no permutations, no node has a list
and every node is live. -/
def LiveIn (n : LiveNode) (index : Nat) : Prop :=
  match n.permutations with
  | none => True
  | some indices => index ∈ indices

@[simp] theorem liveIn_none : LiveIn ⟨id, none⟩ index ↔ True := Iff.rfl

@[simp] theorem liveIn_some : LiveIn ⟨id, some indices⟩ index ↔ index ∈ indices := Iff.rfl

instance : (n : LiveNode) → (index : Nat) → Decidable (n.LiveIn index)
  | ⟨_, none⟩, _ => isTrue trivial
  | ⟨_, some indices⟩, index => inferInstanceAs (Decidable (index ∈ indices))

/-- The permutations of a node are cut out of the `count` that there are; it has none if
there are none. -/
def IsSpread (n : LiveNode) (count : Nat) : Prop :=
  if count = 0 then n.permutations = none
  else ∃ p : Nat → Bool, n.permutations = some ((List.range count).filter p)

/-- Where there are no permutations, every node is live. -/
theorem liveIn_of_isSpread_zero (h : n.IsSpread 0) : n.LiveIn index := by
  rw [IsSpread, if_pos rfl] at h
  rw [LiveIn, h]
  trivial

/-- A node has no guard exactly if it is live in every permutation. -/
theorem guard?_eq_none_iff (h : n.IsSpread count) :
    n.guard? count = none ↔ ∀ index < count, n.LiveIn index := by
  obtain ⟨id, permutations⟩ := n
  by_cases hcount : count = 0
  · simp only [IsSpread, hcount, if_true] at h
    simp [guard?, h, hcount]
  · simp only [IsSpread, hcount, if_false] at h
    obtain ⟨p, rfl⟩ := h
    -- the list is as long as the range exactly if nothing was cut out
    have hle : ((List.range count).filter p).length ≤ (List.range count).length :=
      List.length_filter_le _ _
    rw [List.length_range] at hle
    have hall : ((List.range count).filter p).length = (List.range count).length ↔
        ∀ index ∈ List.range count, p index = true := List.length_filter_eq_length_iff
    rw [List.length_range] at hall
    rw [guard?, Option.filter_eq_none_iff]
    constructor
    · intro hlength index hindex
      have hfull := hlength _ rfl
      rw [decide_eq_true_eq] at hfull
      rw [liveIn_some, List.mem_filter]
      exact ⟨List.mem_range.mpr hindex, hall.mp (by omega) index (List.mem_range.mpr hindex)⟩
    · intro hlive _ hindices
      rw [← Option.some.inj hindices, decide_eq_true_eq]
      have hfull := hall.mpr fun index hindex =>
        (List.mem_filter.mp (liveIn_some.mp (hlive index (List.mem_range.mp hindex)))).2
      omega

/-- The guard of a node lists the permutations it is live in. -/
theorem mem_of_guard?_eq_some (h : n.guard? count = some indices) :
    index ∈ indices ↔ n.LiveIn index := by
  obtain ⟨id, permutations⟩ := n
  obtain ⟨rfl, -⟩ := Option.filter_eq_some_iff.mp h
  exact liveIn_some.symm

/-- A node without a guard is live in each of the permutations, and where there are none. -/
theorem liveIn_of_guard?_eq_none (h : n.IsSpread count) (hindex : count = 0 ∨ index < count)
    (hguard : n.guard? count = none) : n.LiveIn index := by
  rcases hindex with hzero | hlt
  · exact liveIn_of_isSpread_zero (hzero ▸ h)
  · exact (guard?_eq_none_iff h).mp hguard index hlt

/-- A guard lists permutations that there are. -/
theorem lt_of_mem_guard? (h : n.IsSpread count) (hguard : n.guard? count = some indices) :
    ∀ i ∈ indices, i < count := by
  intro i hi
  have hpermutations := (Option.filter_eq_some_iff.mp hguard).1
  by_cases hcount : count = 0
  · rw [IsSpread, if_pos hcount, hpermutations] at h
    exact absurd h (by simp)
  · rw [IsSpread, if_neg hcount] at h
    obtain ⟨p, hp⟩ := h
    rw [hpermutations, Option.some_inj] at hp
    rw [hp] at hi
    exact List.mem_range.mp (List.mem_filter.mp hi).1

/-- The guard of a live node is not empty. -/
theorem ne_nil_of_guard? (hlive : n.isLive = true) (hguard : n.guard? count = some indices) :
    indices ≠ [] := by
  rw [isLive, (Option.filter_eq_some_iff.mp hguard).1] at hlive
  simpa using hlive

theorem isLive_of_liveIn (h : n.LiveIn index) : n.isLive = true := by
  obtain ⟨id, _ | _ | ⟨first, rest⟩⟩ := n
  · rfl
  · simp at h
  · rfl

end LiveNode

/-! ### The nodes of a stage -/

variable {g : Graph} {output : String} {slots : Option (List String)} {ks : Keywords}
  {count : Nat} {nodes : List LiveNode}

section Visits

variable {walks : List (List String)} {walk : List String} {id : String} {indices : List Nat}
  {index : Nat}

theorem addVisits_of_notMem (h : id ∉ walk) : addVisits id indices index walk = indices := by
  induction walk with
  | nil => rfl
  | cons visited walk ih =>
    rw [List.mem_cons, not_or] at h
    rw [addVisits, List.foldl_cons, if_neg (Ne.symm h.1)]
    exact ih h.2

/-- A walk that visits no node twice adds its index once, if it visits the node. -/
theorem addVisits_of_nodup (h : walk.Nodup) :
    addVisits id indices index walk = indices ++ if id ∈ walk then [index] else [] := by
  induction walk with
  | nil => exact (List.append_nil indices).symm
  | cons visited walk ih =>
    obtain ⟨hvisited, hwalk⟩ := List.nodup_cons.mp h
    rw [addVisits, List.foldl_cons]
    by_cases hid : visited = id
    · subst hid
      rw [if_pos rfl, if_pos List.mem_cons_self]
      exact addVisits_of_notMem hvisited
    · have hmem : id ∈ visited :: walk ↔ id ∈ walk := by simp [Ne.symm hid]
      rw [if_neg hid, if_congr hmem rfl rfl]
      exact ih hwalk

/-- **The permutations of a node** are cut out of the range of all, since no walk visits a node
twice. -/
theorem livePermutations_eq_filter (h : ∀ walk ∈ walks, walk.Nodup) (id : String) :
    livePermutations walks id =
      (List.range walks.length).filter fun index => id ∈ walks.getD index [] := by
  induction walks using List.reverseRecOn with
  | nil => rfl
  | append_singleton walks walk ih =>
    obtain ⟨hwalks, hwalk⟩ := List.forall_mem_append.mp h
    have hlast : livePermutations (walks ++ [walk]) id =
        addVisits id (livePermutations walks id) walks.length walk := by
      rw [livePermutations, List.zipIdx_append, List.foldl_append]
      simp [livePermutations]
    -- the walks before the last have the indices that they had
    have hbefore : ((List.range walks.length).filter fun index =>
        decide (id ∈ (walks ++ [walk]).getD index [])) =
          (List.range walks.length).filter fun index => decide (id ∈ walks.getD index []) := by
      refine List.filter_congr fun index hindex => ?_
      rw [List.getD_eq_getElem?_getD, List.getD_eq_getElem?_getD,
        List.getElem?_append_left (List.mem_range.mp hindex)]
    rw [hlast, addVisits_of_nodup (List.forall_mem_singleton.mp hwalk), ih hwalks,
      List.length_append, List.length_singleton, List.range_succ, List.filter_append, hbefore]
    simp [List.filter_singleton]

theorem mem_livePermutations (hwalks : ∀ walk ∈ walks, walk.Nodup) (h : index < walks.length) :
    index ∈ livePermutations walks id ↔ id ∈ walks[index] := by
  rw [livePermutations_eq_filter hwalks, List.mem_filter, decide_eq_true_eq,
    List.getD_eq_getElem?_getD, List.getElem?_eq_getElem h, Option.getD_some]
  exact and_iff_right (List.mem_range.mpr h)

end Visits

/-- **The nodes of a stage** are those of its walk, in the order of the walk.  Each is live
in the permutations whose own walks reach it. -/
theorem liveNodes_spec (h : liveNodes g output slots ks count = .ok nodes) :
    Walk.collect ⟨g, output, slots, fun _ _ => true⟩ = .ok (nodes.map LiveNode.id) ∧
      (∀ n ∈ nodes, n.IsSpread count) ∧
      ∀ index < count, ∃ walk, (permutationWalk g output slots ks index).collect = .ok walk ∧
        ∀ n ∈ nodes, n.LiveIn index ↔ n.id ∈ walk := by
  obtain ⟨ids, hids, h⟩ := Outcome.bind_eq_ok_iff.mp h
  by_cases hcount : count = 0
  · rw [if_pos hcount, Outcome.pure_eq_ok_iff] at h
    subst h
    refine ⟨by simpa [Function.comp_def] using hids, ?_, fun index hindex => by omega⟩
    intro n hn
    obtain ⟨id, -, rfl⟩ := List.mem_map.mp hn
    simp [LiveNode.IsSpread, hcount]
  · rw [if_neg hcount] at h
    obtain ⟨walks, hwalks, h⟩ := Outcome.bind_eq_ok_iff.mp h
    rw [Outcome.pure_eq_ok_iff] at h
    subst h
    have hnodup : ∀ walk ∈ walks, walk.Nodup := by
      intro walk hwalk
      obtain ⟨index, -, hcollect⟩ := Outcome.exists_of_mem_mapM hwalks hwalk
      exact (Walk.isOrdered_of_collect hcollect).1.nodup
    have hwalks := Outcome.mapM_eq_ok_iff.mp hwalks
    have hlength : walks.length = count := by
      rw [← hwalks.length_eq, List.length_range]
    refine ⟨by simpa [Function.comp_def] using hids, ?_, ?_⟩
    · intro n hn
      obtain ⟨id, -, rfl⟩ := List.mem_map.mp hn
      rw [LiveNode.IsSpread, if_neg hcount, ← hlength]
      exact ⟨_, congrArg some (livePermutations_eq_filter hnodup id)⟩
    · intro index hindex
      have hindex : index < walks.length := by omega
      refine ⟨walks[index], ?_, ?_⟩
      · have := List.Forall₂.get hwalks (i := index) (by simpa using by omega) hindex
        simpa using this
      · intro n hn
        obtain ⟨id, -, rfl⟩ := List.mem_map.mp hn
        exact mem_livePermutations hnodup hindex

end MaterialShader
