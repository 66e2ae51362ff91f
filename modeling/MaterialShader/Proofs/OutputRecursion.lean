import Mathlib.Data.List.Perm.Subperm
import MaterialShader.Proofs.StageType

/-!
# Following types

The type of an output is followed from node to node along the connections.  The recursion does
not remember where it has been: what keeps it from going round in a circle is the walk that came
before it.  That walk has every connection in it that the recursion can take, so each step goes
to a node that was collected earlier.  From this it follows that the recursion ends, that it
stays among the collected nodes, and that none of its look-ups fails.

## Main definitions

* `Graph.IsWalked` — the nodes of a walk, all of them known, in a graph whose walks see every
  connection.
* `Graph.IsFedBy` — one step of the recursion.

## Main results

* `Graph.IsWalked.induction` — what holds of a node if it holds of what is connected to it.
* `Graph.IsWalked.acc_isFedBy` — the recursion ends.
* `Graph.IsWalked.mem_of_isFedBy` — it stays among the collected nodes.
* `Graph.IsWalked.exists_outputType` — every output has a type, whatever bounds the recursion.
-/

namespace MaterialShader

open Relation (ReflTransGen)
open Shading (ValueType Typed)

namespace Graph

/-- The nodes of the walk from an output are known, and the ids of the connections differ, so
that the walk has entered each node by all connections into it. -/
structure IsWalked (g : Graph) (output : String) (ids : List String) : Prop where
  /-- No two connections have one id. -/
  distinct : (g.connections.map Connection.id).Nodup
  /-- The nodes are those of the walk. -/
  walk : g.evaluationOrder output = .ok ids
  /-- What they compute is known. -/
  known : ∀ id ∈ ids, ∃ o, g.operation id = .ok o

/-- A step of the recursion goes from a node to one that is connected to an input of it.  The
value of an input takes such a step, and the type of an output takes one for each input whose
width decides it. -/
def IsFedBy (g : Graph) (o source : Operation) : Prop :=
  ∃ socket port, g.connected o.node socket = .ok (some (source, port))

variable {g : Graph} {output : String} {ids pre post : List String} {id socket port : String}
  {o source : Operation} {n : Node}

/-! ### What is connected -/

/-- What is connected to an input is the operation at the other end of the connection. -/
theorem connected_spec (h : g.connected n socket = .ok (some (source, port))) :
    ∃ c, g.incomingAt? n.id socket = some c ∧ g.operation c.source.node = .ok source ∧
      c.source.socket = port := by
  unfold connected at h
  split at h
  · exact absurd h (by rintro ⟨⟩)
  · next c hc =>
    obtain ⟨o, ho, h⟩ := Outcome.bind_eq_ok_iff.mp h
    obtain ⟨rfl, hport⟩ := Prod.mk.inj (Option.some.inj (Outcome.pure_eq_ok_iff.mp h))
    exact ⟨c, hc, ho, hport⟩

namespace IsWalked

/-- The walk has collected the source of a connection into a node before the node. -/
theorem source_mem (h : g.IsWalked output ids) (hsplit : ids = pre ++ id :: post)
    {c : Connection} (hc : g.incomingAt? id socket = some c) : c.source.node ∈ pre := by
  obtain ⟨hordered, -⟩ := Walk.isOrdered_of_collect h.walk
  obtain ⟨n, hn, -⟩ := hordered.enters pre id post hsplit
  refine hordered.source_mem_of_eq hsplit hn (List.mem_filter.mpr ⟨?_, rfl⟩)
  exact mem_incoming h.distinct (mem_of_incomingAt? hc)
    ((target_of_incomingAt? hc).1.trans (id_of_findNode hn).symm)

/-- What is connected to a collected node is known, and it has been collected before. -/
theorem exists_connected (h : g.IsWalked output ids) (hsplit : ids = pre ++ id :: post)
    (ho : g.operation id = .ok o) (socket : String) :
    g.connected o.node socket = .ok none ∨ ∃ source port before after,
      g.connected o.node socket = .ok (some (source, port)) ∧
        g.operation source.node.id = .ok source ∧ pre = before ++ source.node.id :: after := by
  unfold connected
  rw [id_of_operation ho]
  cases hc : g.incomingAt? id socket with
  | none => exact Or.inl rfl
  | some c =>
    have hpre : c.source.node ∈ pre := h.source_mem hsplit hc
    obtain ⟨source, hsource⟩ := h.known c.source.node (hsplit ▸ List.mem_append_left _ hpre)
    have hid : source.node.id = c.source.node := id_of_operation hsource
    obtain ⟨before, after, hpre⟩ := List.append_of_mem hpre
    refine Or.inr ⟨source, c.source.socket, before, after, ?_, hid ▸ hsource, hid ▸ hpre⟩
    simp only [hsource]
    rfl

/-- **What holds of a node if it holds of what is connected to it** holds of all nodes of a walk;
`pre` are the nodes before the one that it is said of. -/
theorem induction (h : g.IsWalked output ids) {P : List String → Operation → Prop}
    (hstep : ∀ pre id post o, ids = pre ++ id :: post → g.operation id = .ok o →
      (∀ socket source port, g.connected o.node socket = .ok (some (source, port)) →
        ∃ before, before.length < pre.length ∧ P before source) → P pre o)
    (hsplit : ids = pre ++ id :: post) (ho : g.operation id = .ok o) : P pre o := by
  induction hlength : pre.length using Nat.strong_induction_on generalizing pre id post o with
  | h k ih =>
    refine hstep pre id post o hsplit ho fun socket source port hconnected => ?_
    obtain hnone | ⟨source', port', before, after, hsome, hsource, hpre⟩ :=
      h.exists_connected hsplit ho socket
    · rw [hnone] at hconnected
      exact absurd hconnected (by rintro ⟨⟩)
    · rw [hsome] at hconnected
      obtain ⟨rfl, rfl⟩ := Prod.mk.inj (Option.some.inj (Except.ok.inj hconnected))
      have hshorter : before.length < pre.length := by
        rw [hpre, List.length_append, List.length_cons]
        omega
      have hsplit' : ids = before ++ source'.node.id :: (after ++ id :: post) := by
        rw [hsplit, hpre, List.append_assoc, List.cons_append]
      exact ⟨before, hshorter, ih before.length (hlength ▸ hshorter) hsplit' hsource rfl⟩

/-- **The recursion ends** from every collected node. -/
theorem acc_isFedBy (h : g.IsWalked output ids) (hid : id ∈ ids)
    (ho : g.operation id = .ok o) : Acc (fun source o => g.IsFedBy o source) o := by
  obtain ⟨pre, post, hsplit⟩ := List.append_of_mem hid
  refine h.induction (P := fun _ o => Acc (fun source o => g.IsFedBy o source) o) ?_ hsplit ho
  intro pre id post o _ _ hsources
  refine Acc.intro o fun source hfed => ?_
  obtain ⟨socket, port, hconnected⟩ := hfed
  obtain ⟨-, -, hacc⟩ := hsources socket source port hconnected
  exact hacc

/-- **The recursion stays among the collected nodes.** -/
theorem mem_of_isFedBy (h : g.IsWalked output ids) (hid : id ∈ ids)
    (ho : g.operation id = .ok o) (hfed : ReflTransGen g.IsFedBy o source) :
    source.node.id ∈ ids ∧ g.operation source.node.id = .ok source := by
  induction hfed with
  | refl => rw [id_of_operation ho]; exact ⟨hid, ho⟩
  | tail _ hlast ih =>
    obtain ⟨hmem, hoperation⟩ := ih
    obtain ⟨socket, port, hconnected⟩ := hlast
    obtain ⟨pre, post, hsplit⟩ := List.append_of_mem hmem
    obtain ⟨c, hc, hsource, -⟩ := connected_spec hconnected
    have hpre : c.source.node ∈ pre := h.source_mem hsplit hc
    rw [id_of_operation hsource]
    exact ⟨hsplit ▸ List.mem_append_left _ hpre, hsource⟩

/-- A walk collects no more nodes than there are. -/
theorem length_le (h : g.IsWalked output ids) : ids.length ≤ g.nodes.length := by
  obtain ⟨hordered, -⟩ := Walk.isOrdered_of_collect h.walk
  have hsubset : ids ⊆ g.nodes.map Node.id := by
    intro id hid
    obtain ⟨n, hn, rfl⟩ := hordered.exists_node hid
    exact List.mem_map_of_mem hn
  rw [← List.length_map (f := Node.id)]
  exact (hordered.nodup.subperm hsubset).length_le

end IsWalked

/-! ### Types of outputs -/

/-- One step of the loop over the inputs that decide the type of an output. -/
def widen (g : Graph) (fuel : Nat) (o : Operation) (t : ValueType) (input : String) :
    Except GenerationError ValueType := do
  match ← g.connected o.node input with
  | none => return t
  | some (source, port) => return t.wider (← g.outputTypeWithin fuel source port)

theorem outputTypeWithin_of_fixedType? {t : ValueType} {fuel : Nat}
    (h : o.fixedType? socket = some t) : g.outputTypeWithin (fuel + 1) o socket = .ok t := by
  rw [outputTypeWithin, h]

theorem outputTypeWithin_of_none {fuel : Nat} (h : o.fixedType? socket = none) :
    g.outputTypeWithin (fuel + 1) o socket = o.wideningSockets.foldlM (g.widen fuel o) .float := by
  rw [outputTypeWithin, h]
  rfl

/-- The types of what is connected settle the type of an output, beyond their own bound. -/
theorem exists_outputTypeWithin {bound : Nat}
    (hsources : ∀ socket, g.connected o.node socket = .ok none ∨ ∃ source port t,
      g.connected o.node socket = .ok (some (source, port)) ∧
        ∀ fuel, bound ≤ fuel → g.outputTypeWithin fuel source port = .ok t) (socket : String) :
    ∃ t, ∀ fuel, bound < fuel → g.outputTypeWithin fuel o socket = .ok t := by
  cases hfixed : o.fixedType? socket with
  | some t =>
    refine ⟨t, fun fuel hfuel => ?_⟩
    obtain ⟨k, rfl⟩ := Nat.exists_eq_add_of_lt (Nat.zero_lt_of_lt hfuel)
    rw [Nat.zero_add]
    exact outputTypeWithin_of_fixedType? hfixed
  | none =>
    -- what bounds the recursion does not matter to a step, so it does not to the loop
    have hstep : ∀ t input, ∃ t', ∀ fuel, bound ≤ fuel → g.widen fuel o t input = .ok t' := by
      intro t input
      unfold widen
      obtain hnone | ⟨source, port, u, hsome, hu⟩ := hsources input
      · refine ⟨t, fun fuel _ => ?_⟩
        rw [hnone]
        rfl
      · refine ⟨t.wider u, fun fuel hfuel => ?_⟩
        rw [hsome]
        show (g.outputTypeWithin fuel source port >>= fun u => pure (t.wider u)) = _
        rw [hu fuel hfuel]
        rfl
    obtain ⟨t, ht⟩ : ∃ t, o.wideningSockets.foldlM (g.widen bound o) .float = .ok t := by
      refine Outcome.FailsOnly.exists_ok (Outcome.FailsOnly.foldlM fun t input _ => ?_)
      obtain ⟨t', ht'⟩ := hstep t input
      exact Outcome.FailsOnly.of_exists ⟨t', ht' bound (Nat.le_refl bound)⟩
    refine ⟨t, fun fuel hfuel => ?_⟩
    obtain ⟨k, rfl⟩ := Nat.exists_eq_add_of_lt hfuel
    rw [outputTypeWithin_of_none hfixed, ← ht]
    refine Outcome.foldlM_congr fun t input _ => ?_
    obtain ⟨t', ht'⟩ := hstep t input
    rw [ht' bound (Nat.le_refl bound), ht' (bound + k) (Nat.le_add_right bound k)]

namespace IsWalked

/-- **Every output of a collected node has a type**, the same under every bound above the number
of nodes. -/
theorem exists_outputTypeWithin (h : g.IsWalked output ids) (hid : id ∈ ids)
    (ho : g.operation id = .ok o) (socket : String) :
    ∃ t, ∀ bound, g.nodes.length < bound → g.outputTypeWithin bound o socket = .ok t := by
  obtain ⟨pre, post, hsplit⟩ := List.append_of_mem hid
  have htype : ∀ socket, ∃ t, ∀ fuel, pre.length < fuel →
      g.outputTypeWithin fuel o socket = .ok t := by
    refine h.induction (P := fun pre o => ∀ socket, ∃ t, ∀ fuel, pre.length < fuel →
      g.outputTypeWithin fuel o socket = .ok t) ?_ hsplit ho
    intro pre id post o hsplit ho hsources socket
    refine Graph.exists_outputTypeWithin (fun input => ?_) socket
    refine (h.exists_connected hsplit ho input).imp_right ?_
    rintro ⟨source, port, -, -, hconnected, -, -⟩
    obtain ⟨before, hshorter, htypes⟩ := hsources input source port hconnected
    obtain ⟨t, ht⟩ := htypes port
    exact ⟨source, port, t, hconnected, fun fuel hfuel => ht fuel (by omega)⟩
  obtain ⟨t, ht⟩ := htype socket
  refine ⟨t, fun bound hbound => ht bound ?_⟩
  have hlength := h.length_le
  rw [hsplit, List.length_append] at hlength
  omega

theorem exists_outputType (h : g.IsWalked output ids) (hid : id ∈ ids)
    (ho : g.operation id = .ok o) (socket : String) : ∃ t, g.outputType o socket = .ok t := by
  obtain ⟨t, ht⟩ := h.exists_outputTypeWithin hid ho socket
  exact ⟨t, ht _ (Nat.lt_succ_self _)⟩

/-- What is connected to a collected node has a type. -/
theorem exists_connectedOutput (h : g.IsWalked output ids) (hid : id ∈ ids)
    (ho : g.operation id = .ok o) (socket : String) :
    ∃ value?, g.connectedOutput o.node socket = .ok value? := by
  obtain ⟨pre, post, hsplit⟩ := List.append_of_mem hid
  unfold connectedOutput
  obtain hnone | ⟨source, port, before, after, hsome, hsource, hpre⟩ :=
    h.exists_connected hsplit ho socket
  · exact ⟨none, by rw [hnone]; rfl⟩
  · have hmem : source.node.id ∈ ids := by
      rw [hsplit, hpre]
      exact List.mem_append_left _ (List.mem_append_right _ List.mem_cons_self)
    obtain ⟨t, ht⟩ := h.exists_outputType hmem hsource port
    refine ⟨some ⟨t, .variable (source.node.variable port)⟩, ?_⟩
    rw [hsome]
    show (g.outputType source port >>= fun t => pure (some (Typed.mk t _))) = _
    rw [ht]
    rfl

end IsWalked
end Graph
end MaterialShader
