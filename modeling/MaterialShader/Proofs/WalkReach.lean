import Mathlib.Data.List.Perm.Subperm
import Mathlib.Logic.Relation
import MaterialShader.Proofs.WalkOrder

/-!
# What a walk reaches

A walk is a search by depth.  Here it is compared with the relation it searches: it collects
the nodes that can be reached, and it fails only for what can be reached, a node that is not
there or a cycle.

Two facts about the open nodes of a visit carry the proofs.  Each of them leads to the visited
node, so meeting one of them again closes a cycle.  And they are different nodes of the graph,
so there are never more of them than nodes, and the bound on the depth of a walk is never met.

## Main definitions

* `Walk.LeadsTo`, `Walk.Reaches` — the connections of a walk as a relation between ids, and
  what can be reached from the output.
* `Walk.AreOpen` — what is known of the open nodes of a visit.
* `Walk.Explains` — what an error of a walk says about the graph.

## Main results

* `visit_eq_of_lt` — a higher bound on the depth changes nothing.
* `explains_of_visit` — what a visit that fails has met.
* `collect_eq_ok_spec` — what a walk collects.
* `collect_outcome` — when a walk succeeds, and what its errors mean.
-/

namespace MaterialShader

open Relation (ReflTransGen TransGen)

namespace Graph

variable {g : Graph} {id : String}

theorem exists_findNode_iff : (∃ n, g.findNode id = .ok n) ↔ ∃ n ∈ g.nodes, n.id = id := by
  constructor
  · rintro ⟨n, hn⟩
    exact ⟨n, List.mem_of_find?_eq_some (findNode_eq_ok_iff.mp hn), id_of_findNode hn⟩
  · rintro ⟨n, hn, hid⟩
    cases hfind : g.node? id with
    | some m => exact ⟨m, findNode_eq_ok_iff.mpr hfind⟩
    | none =>
      have := List.find?_eq_none.mp hfind n hn
      simp [hid] at this

theorem findNode_eq_error {e : GenerationError} (h : g.findNode id = .error e) :
    e = .missingNode id ∧ ∀ n ∈ g.nodes, n.id ≠ id := by
  have hnone : ¬∃ n, g.findNode id = .ok n := by
    rintro ⟨n, hn⟩
    rw [hn] at h
    exact absurd h (by rintro ⟨⟩)
  constructor
  · unfold findNode at h
    split at h
    · exact absurd h (by rintro ⟨⟩)
    · exact (Except.error.inj h).symm
  · intro n hn hid
    exact hnone (exists_findNode_iff.mpr ⟨n, hn, hid⟩)

end Graph

namespace Walk

variable {w : Walk} {opened done after : List String} {id source : String} {fuel : Nat} {n : Node}
  {c : Connection} {e : GenerationError}

/-! ### The relation of a walk -/

/-- The walk leads from a node to one that feeds it: over an incoming connection that it
follows.  The slots limit what is followed from the output node, and from no other. -/
def LeadsTo (w : Walk) (id source : String) : Prop :=
  ∃ n, w.graph.findNode id = .ok n ∧ ∃ c ∈ w.graph.incoming n, c.source.node = source ∧
    (id = w.output → ∀ slots, w.slots = some slots → c.target.socket ∈ slots) ∧
    w.follows n c = true

/-- The node can be reached from the output. -/
def Reaches (w : Walk) (id : String) : Prop := ReflTransGen w.LeadsTo w.output id

theorem admitsSlot_iff : w.admitsSlot n c = true ↔
    (n.id = w.output → ∀ slots, w.slots = some slots → c.target.socket ∈ slots) := by
  unfold admitsSlot
  cases hslots : w.slots with
  | none => simp
  | some slots =>
    by_cases hid : n.id = w.output
    · simp [hid]
    · simp [hid]

theorem mem_edges_iff : c ∈ w.edges n ↔ c ∈ w.graph.incoming n ∧
    (n.id = w.output → ∀ slots, w.slots = some slots → c.target.socket ∈ slots) ∧
    w.follows n c = true := by
  rw [edges, List.mem_filter, Bool.and_eq_true, admitsSlot_iff]

theorem leadsTo_of_mem_edges (hn : w.graph.findNode id = .ok n) (hc : c ∈ w.edges n) :
    w.LeadsTo id c.source.node := by
  obtain ⟨hincoming, hslots, hfollows⟩ := mem_edges_iff.mp hc
  rw [Graph.id_of_findNode hn] at hslots
  exact ⟨n, hn, c, hincoming, rfl, hslots, hfollows⟩

theorem LeadsTo.exists_edge (h : w.LeadsTo id source) :
    ∃ n, w.graph.findNode id = .ok n ∧ ∃ c ∈ w.edges n, c.source.node = source := by
  obtain ⟨n, hn, c, hincoming, hsource, hslots, hfollows⟩ := h
  rw [← Graph.id_of_findNode hn] at hslots
  exact ⟨n, hn, c, mem_edges_iff.mpr ⟨hincoming, hslots, hfollows⟩, hsource⟩

/-! ### What is collected is reached -/

/-- Only what can be reached is collected. -/
theorem reaches_of_visit (h : w.visit fuel opened done id = .ok after) (hid : w.Reaches id)
    (hdone : ∀ x ∈ done, w.Reaches x) : ∀ x ∈ after, w.Reaches x := by
  induction fuel generalizing opened done id after with
  | zero => exact absurd h (by rintro ⟨⟩)
  | succ fuel ih =>
    obtain ⟨-, rfl⟩ | ⟨-, -, n, fed, hn, hfed, rfl⟩ := visit_eq_ok h
    · exact hdone
    have hloop := Outcome.foldlM_invariant
      (fun (_ : List Connection) (s : List String) => ∀ x ∈ s, w.Reaches x)
      (fun _ s c t hc hs ht => ih ht (hid.tail (leadsTo_of_mem_edges hn hc)) hs) hdone hfed
    exact List.forall_mem_append.mpr ⟨hloop, List.forall_mem_singleton.mpr hid⟩

/-! ### Open nodes -/

/-- The open nodes of a visit to a node: different nodes of the graph, each of which leads
there. -/
structure AreOpen (w : Walk) (opened : List String) (id : String) : Prop where
  /-- No node is opened twice. -/
  nodup : opened.Nodup
  /-- A node was found before it was opened. -/
  nodes : ∀ x ∈ opened, ∃ n ∈ w.graph.nodes, n.id = x
  /-- The visit is made on behalf of each of them. -/
  leads : ∀ x ∈ opened, TransGen w.LeadsTo x id

theorem areOpen_nil : w.AreOpen [] id where
  nodup := List.nodup_nil
  nodes := List.forall_mem_nil _
  leads := List.forall_mem_nil _

/-- The open nodes while the sources of a node are visited. -/
theorem AreOpen.cons (h : w.AreOpen opened id) (hid : id ∉ opened)
    (hn : w.graph.findNode id = .ok n) (hc : c ∈ w.edges n) :
    w.AreOpen (id :: opened) c.source.node where
  nodup := List.nodup_cons.mpr ⟨hid, h.nodup⟩
  nodes := List.forall_mem_cons.mpr ⟨Graph.exists_findNode_iff.mp ⟨n, hn⟩, h.nodes⟩
  leads := by
    have hstep := leadsTo_of_mem_edges hn hc
    exact List.forall_mem_cons.mpr ⟨.single hstep, fun x hx => (h.leads x hx).tail hstep⟩

/-- There are no more open nodes than nodes. -/
theorem AreOpen.length_le (h : w.AreOpen opened id) : opened.length ≤ w.graph.nodes.length := by
  have hsub : opened ⊆ w.graph.nodes.map Node.id := by
    intro x hx
    obtain ⟨n, hn, hid⟩ := h.nodes x hx
    exact List.mem_map.mpr ⟨n, hn, hid⟩
  have hle := (h.nodup.subperm hsub).length_le
  rwa [List.length_map] at hle

/-- **A higher bound on the depth changes nothing**: the recursion ends by itself before a
bound above the number of nodes is met. -/
theorem visit_eq_of_lt {bound : Nat} (hopened : w.AreOpen opened id)
    (hfuel : w.graph.nodes.length < fuel + opened.length)
    (hbound : w.graph.nodes.length < bound + opened.length) :
    w.visit fuel opened done id = w.visit bound opened done id := by
  induction fuel generalizing bound opened done id with
  | zero =>
    have := hopened.length_le
    omega
  | succ fuel ih =>
    cases bound with
    | zero =>
      have := hopened.length_le
      omega
    | succ bound =>
      by_cases hdone : id ∈ done
      · rw [visit_of_mem hdone, visit_of_mem hdone]
      by_cases hmem : id ∈ opened
      · rw [visit_of_mem_opened hdone hmem, visit_of_mem_opened hdone hmem]
      rw [visit_of_notMem hdone hmem, visit_of_notMem hdone hmem]
      cases hn : w.graph.findNode id with
      | error e => rfl
      | ok n =>
        -- the bounds count down while one more node is open
        have hsources : w.visitSources fuel (id :: opened) done n =
            w.visitSources bound (id :: opened) done n := by
          refine Outcome.foldlM_congr fun s c hc => ih (hopened.cons hmem hn hc) ?_ ?_
          · rw [List.length_cons]
            omega
          · rw [List.length_cons]
            omega
        exact congrArg (fun r : Except GenerationError (List String) => do return (← r) ++ [id])
          hsources

/-! ### Errors -/

/-- What an error of a walk says: the node it names can be reached, and it lies on a cycle or
is not there. -/
inductive Explains (w : Walk) : GenerationError → Prop where
  /-- The walk comes back to a node. -/
  | cycle {id : String} (hreaches : w.Reaches id) (hcycle : TransGen w.LeadsTo id id) :
      Explains w (.cycle id)
  /-- The walk comes to a node that is not there. -/
  | missing {id : String} (hreaches : w.Reaches id) (hmissing : ∀ n ∈ w.graph.nodes, n.id ≠ id) :
      Explains w (.missingNode id)

/-- **What a visit that fails has met.** -/
theorem explains_of_visit (h : w.visit fuel opened done id = .error e) (hid : w.Reaches id)
    (hopened : w.AreOpen opened id) (hfuel : w.graph.nodes.length < fuel + opened.length) :
    w.Explains e := by
  induction fuel generalizing opened done id with
  | zero =>
    have := hopened.length_le
    omega
  | succ fuel ih =>
    by_cases hdone : id ∈ done
    · rw [visit_of_mem hdone] at h
      exact absurd h (by rintro ⟨⟩)
    by_cases hmem : id ∈ opened
    · rw [visit_of_mem_opened hdone hmem] at h
      rw [← Except.error.inj h]
      exact .cycle hid (hopened.leads id hmem)
    rw [visit_of_notMem hdone hmem] at h
    obtain hfind | ⟨n, hn, h⟩ := Outcome.bind_eq_error_iff.mp h
    · obtain ⟨rfl, hmissing⟩ := Graph.findNode_eq_error hfind
      exact .missing hid hmissing
    obtain hsources | ⟨fed, -, h⟩ := Outcome.bind_eq_error_iff.mp h
    · obtain ⟨s, c, hc, herror⟩ := Outcome.exists_of_foldlM_eq_error hsources
      refine ih herror (hid.tail (leadsTo_of_mem_edges hn hc)) (hopened.cons hmem hn hc) ?_
      rw [List.length_cons]
      omega
    · exact absurd h (by rintro ⟨⟩)

theorem explains_of_collect (h : w.collect = .error e) : w.Explains e :=
  explains_of_visit h .refl areOpen_nil (by simp)

/-! ### What is collected -/

section Collected

variable {out pre post : List String}

theorem reaches_of_collect (h : w.collect = .ok out) : ∀ x ∈ out, w.Reaches x :=
  reaches_of_visit h .refl (List.forall_mem_nil _)

/-- The output node is collected last. -/
theorem getLast?_of_collect (h : w.collect = .ok out) : out.getLast? = some w.output := by
  obtain ⟨hmem, -⟩ | ⟨-, -, n, fed, -, -, rfl⟩ := visit_eq_ok h
  · exact absurd hmem List.not_mem_nil
  · exact List.getLast?_concat

namespace IsOrdered

/-- A collected node comes after those it leads to. -/
theorem mem_of_leadsTo (h : w.IsOrdered out) (hlead : w.LeadsTo id source)
    (hsplit : out = pre ++ id :: post) : source ∈ pre := by
  obtain ⟨n, hn, c, hc, rfl⟩ := hlead.exists_edge
  exact h.source_mem_of_eq hsplit hn hc

theorem mem_of_transGen (h : w.IsOrdered out) (hsource : TransGen w.LeadsTo id source)
    (hsplit : out = pre ++ id :: post) : source ∈ pre := by
  induction hsource with
  | single hlead => exact h.mem_of_leadsTo hlead hsplit
  | tail _ hlead ih =>
    -- the node before stands in front, and what it leads to stands in front of it
    obtain ⟨front, rest, rfl⟩ := List.append_of_mem ih
    rw [List.append_assoc, List.cons_append] at hsplit
    exact List.mem_append_left _ (h.mem_of_leadsTo hlead hsplit)

theorem mem_of_reaches (h : w.IsOrdered out) (houtput : w.output ∈ out) (hid : w.Reaches id) :
    id ∈ out := by
  induction hid with
  | refl => exact houtput
  | tail _ hlead ih =>
    obtain ⟨n, hn, c, hc, rfl⟩ := hlead.exists_edge
    exact h.source_mem ih hn hc

theorem exists_node (h : w.IsOrdered out) (hid : id ∈ out) : ∃ n ∈ w.graph.nodes, n.id = id := by
  obtain ⟨pre, post, hsplit⟩ := List.append_of_mem hid
  obtain ⟨n, hn, -⟩ := h.enters pre id post hsplit
  exact Graph.exists_findNode_iff.mp ⟨n, hn⟩

/-- No cycle goes through a collected node. -/
theorem not_transGen_self (h : w.IsOrdered out) (hid : id ∈ out) :
    ¬TransGen w.LeadsTo id id := by
  intro hcycle
  obtain ⟨pre, post, hsplit⟩ := List.append_of_mem hid
  have hpre : id ∈ pre := h.mem_of_transGen hcycle hsplit
  have hnodup := h.nodup
  rw [hsplit] at hnodup
  exact List.disjoint_of_nodup_append hnodup hpre List.mem_cons_self

end IsOrdered

/-- A walk collects exactly what it reaches. -/
theorem mem_iff_reaches (h : w.collect = .ok out) : id ∈ out ↔ w.Reaches id := by
  obtain ⟨hordered, houtput⟩ := isOrdered_of_collect h
  exact ⟨reaches_of_collect h id, hordered.mem_of_reaches houtput⟩

/-- **What a walk collects**: each node that can be reached, once, after the nodes it is fed
by, and the output node last. -/
theorem collect_eq_ok_spec (h : w.collect = .ok out) :
    out.Nodup ∧ out.getLast? = some w.output ∧ (∀ id, id ∈ out ↔ w.Reaches id) ∧
      ∀ pre id post, out = pre ++ id :: post → ∀ source, w.LeadsTo id source → source ∈ pre := by
  obtain ⟨hordered, -⟩ := isOrdered_of_collect h
  refine ⟨hordered.nodup, getLast?_of_collect h, fun _ => mem_iff_reaches h, ?_⟩
  intro pre id post hsplit source hlead
  exact hordered.mem_of_leadsTo hlead hsplit

/-- A product that feeds two slots, one of its factors another slot, and a socket that the
product does not declare. -/
def diamondGraph : Graph where
  version := "1"
  metadata := { name := "Diamond" }
  nodes := [
    { id := "out", type := "Master", inputs := [{ id := "BaseColor" }, { id := "Alpha" }] },
    { id := "mul", type := "Multiply", inputs := [{ id := "A" }, { id := "B" }] },
    { id := "a", type := "Color" },
    { id := "b", type := "Float" },
    { id := "c", type := "Float" }]
  connections := [
    ⟨"c1", ⟨"a", "Out"⟩, ⟨"mul", "A"⟩⟩,
    ⟨"c2", ⟨"b", "Out"⟩, ⟨"mul", "B"⟩⟩,
    ⟨"c3", ⟨"mul", "Out"⟩, ⟨"out", "BaseColor"⟩⟩,
    ⟨"c4", ⟨"b", "Out"⟩, ⟨"out", "Alpha"⟩⟩,
    ⟨"c5", ⟨"c", "Out"⟩, ⟨"mul", "Unused"⟩⟩]

theorem collect_eq_ok_spec_diamond :
    let w : Walk := ⟨diamondGraph, "out", some ["Alpha", "BaseColor"], fun _ c => c.id != "c1"⟩
    w.collect = .ok ["b", "c", "mul", "out"] ∧
      (∀ id, id ∈ ["b", "c", "mul", "out"] ↔ w.Reaches id) ∧
      ∀ source, w.LeadsTo "mul" source → source ∈ ["b", "c"] := by
  intro w
  have h : w.collect = .ok ["b", "c", "mul", "out"] := by decide +kernel
  obtain ⟨-, -, hreaches, hbefore⟩ := collect_eq_ok_spec h
  exact ⟨h, hreaches, hbefore ["b", "c"] "mul" ["out"] rfl⟩

end Collected

/-! ### When a walk succeeds -/

/-- **A walk succeeds** exactly if all it reaches is there and it comes to no cycle. -/
theorem exists_collect_eq_ok_iff : (∃ out, w.collect = .ok out) ↔
    (∀ id, w.Reaches id → ∃ n ∈ w.graph.nodes, n.id = id) ∧
      ∀ id, w.Reaches id → ¬TransGen w.LeadsTo id id := by
  constructor
  · rintro ⟨out, h⟩
    have hordered := (isOrdered_of_collect h).1
    exact ⟨fun id hid => hordered.exists_node ((mem_iff_reaches h).mpr hid),
      fun id hid => hordered.not_transGen_self ((mem_iff_reaches h).mpr hid)⟩
  · rintro ⟨hnodes, hacyclic⟩
    cases h : w.collect with
    | ok out => exact ⟨out, rfl⟩
    | error e =>
      cases explains_of_collect h with
      | cycle hid hcycle => exact absurd hcycle (hacyclic _ hid)
      | missing hid hmissing =>
        obtain ⟨n, hn, hname⟩ := hnodes _ hid
        exact absurd hname (hmissing n hn)

/-- The walk from the same output without limits. -/
def unlimited (w : Walk) : Walk := ⟨w.graph, w.output, none, fun _ _ => true⟩

theorem LeadsTo.unlimited (h : w.LeadsTo id source) : w.unlimited.LeadsTo id source := by
  obtain ⟨n, hn, c, hc, hsource, -⟩ := h
  exact ⟨n, hn, c, hc, hsource, fun _ _ hslots => absurd hslots (by rintro ⟨⟩), rfl⟩

theorem Reaches.unlimited (h : w.Reaches id) : w.unlimited.Reaches id :=
  ReflTransGen.mono (fun _ _ hlead => LeadsTo.unlimited hlead) _ _ h

theorem transGen_unlimited (h : TransGen w.LeadsTo id source) :
    TransGen w.unlimited.LeadsTo id source :=
  TransGen.mono (fun _ _ hlead => LeadsTo.unlimited hlead) _ _ h

/-- Limits make no walk fail, and none collect more. -/
theorem collect_subset_of_unlimited {ids : List String}
    (h : w.graph.evaluationOrder w.output = .ok ids) :
    ∃ out, w.collect = .ok out ∧ out ⊆ ids := by
  have hall : w.unlimited.collect = .ok ids := h
  obtain ⟨hnodes, hacyclic⟩ := exists_collect_eq_ok_iff.mp ⟨ids, hall⟩
  obtain ⟨out, hout⟩ : ∃ out, w.collect = .ok out :=
    exists_collect_eq_ok_iff.mpr ⟨fun id hid => hnodes id hid.unlimited,
      fun id hid hcycle => hacyclic id hid.unlimited (transGen_unlimited hcycle)⟩
  refine ⟨out, hout, fun id hid => ?_⟩
  exact (mem_iff_reaches hall).mpr (reaches_of_collect hout id hid).unlimited

/-- **Every walk ends, and its outcome says what it has met.**  It ends by itself: a higher
bound on its depth changes nothing.  It succeeds exactly if all it reaches is there and it
comes to no cycle.  An error names a node that can be reached, and which lies on a cycle or is
not there.  So a walk with limits succeeds where the one without does, with some of its
nodes. -/
theorem collect_outcome (w : Walk) :
    (∀ bound, w.graph.nodes.length < bound → w.visit bound [] [] w.output = w.collect) ∧
      ((∃ out, w.collect = .ok out) ↔
        (∀ id, w.Reaches id → ∃ n ∈ w.graph.nodes, n.id = id) ∧
          ∀ id, w.Reaches id → ¬TransGen w.LeadsTo id id) ∧
      (∀ e, w.collect = .error e →
        (∃ x, e = .cycle x ∧ w.Reaches x ∧ TransGen w.LeadsTo x x) ∨
          ∃ y, e = .missingNode y ∧ w.Reaches y ∧ ∀ n ∈ w.graph.nodes, n.id ≠ y) ∧
      ∀ ids, w.graph.evaluationOrder w.output = .ok ids →
        ∃ out, w.collect = .ok out ∧ out ⊆ ids := by
  refine ⟨fun bound hbound => ?_, exists_collect_eq_ok_iff, fun e h => ?_, fun ids h =>
    collect_subset_of_unlimited h⟩
  · exact visit_eq_of_lt areOpen_nil (by simpa using hbound) (by simp)
  · cases explains_of_collect h with
    | cycle hid hcycle => exact Or.inl ⟨_, rfl, hid, hcycle⟩
    | missing hid hmissing => exact Or.inr ⟨_, rfl, hid, hmissing⟩

end Walk
end MaterialShader
