import MaterialShader.Proofs.KeywordError

/-!
# Graphs that agree on some nodes

A walk, and all that is looked up for its nodes, goes from nodes to what feeds them.  So two
graphs cannot be told apart from nodes on which they agree, if what feeds such a node is again
one of them: in either graph the nodes are found under the same ids, and the same connections
lead into them.

## Main definitions

* `Graph.AgreesOn` — two graphs agree on some nodes.

## Main results

* `Graph.AgreesOn.collect_eq` — walks from these nodes collect the same nodes.
* `Graph.AgreesOn.mem_of_collect` — they stay among them.
* `Graph.AgreesOn.passFields_eq` — passes have the same nodes and fields.
* `Graph.AgreesOn.outputTypeWithin_eq` — outputs have the same types under the same bound.
-/

namespace MaterialShader

open Shading (ValueType)

namespace Graph

/-- The second graph has the same nodes under some ids as the first one, with the same
connections into them, which come from such nodes again. -/
structure AgreesOn (g g' : Graph) (U : String → Prop) : Prop where
  /-- The same nodes are found. -/
  node : ∀ id, U id → g'.node? id = g.node? id
  /-- The same connections feed their sockets. -/
  incomingAt : ∀ id socket, U id → g'.incomingAt? id socket = g.incomingAt? id socket
  /-- The same connections are followed into them, in the same order. -/
  incoming : ∀ id n, U id → g.node? id = some n → g'.incoming n = g.incoming n
  /-- What feeds one of the nodes is one of them. -/
  source : ∀ c ∈ g.connections, U c.target.node → U c.source.node

variable {g g' : Graph} {U : String → Prop} {id output : String} {n : Node} {o : Operation}

/-! ### Incoming connections -/

theorem mem_of_mem_foldl_addIncoming {node : String} {cs found : List Connection} {c : Connection}
    (h : c ∈ cs.foldl (addIncoming node) found) : c ∈ found ∨ c ∈ cs ∧ c.target.node = node := by
  induction cs generalizing found with
  | nil => exact Or.inl h
  | cons d cs ih =>
    rcases ih h with hfound | ⟨hcs, htarget⟩
    · unfold addIncoming at hfound
      split at hfound
      · next hadded =>
        rcases List.mem_append.mp hfound with hfound | hd
        · exact Or.inl hfound
        · rw [List.mem_singleton.mp hd]
          exact Or.inr ⟨List.mem_cons_self, hadded.1⟩
      · exact Or.inl hfound
    · exact Or.inr ⟨List.mem_cons_of_mem d hcs, htarget⟩

/-- The connections that feed a node are connections into it. -/
theorem mem_of_mem_incoming {c : Connection} (h : c ∈ g.incoming n) :
    c ∈ g.connections ∧ c.target.node = n.id := by
  rcases mem_of_mem_foldl_addIncoming h with hdeclared | hadded
  · obtain ⟨s, -, hs⟩ := List.mem_filterMap.mp hdeclared
    exact ⟨mem_of_incomingAt? hs, (target_of_incomingAt? hs).1⟩
  · exact hadded

namespace AgreesOn

/-! ### Look-ups -/

theorem findNode_eq (h : g.AgreesOn g' U) (hid : U id) : g'.findNode id = g.findNode id := by
  rw [findNode, findNode, h.node id hid]

theorem operation_eq (h : g.AgreesOn g' U) (hid : U id) : g'.operation id = g.operation id := by
  rw [operation, operation, h.findNode_eq hid]

/-- What feeds one of the nodes over a connection that was found is one of them. -/
theorem of_incomingAt? (h : g.AgreesOn g' U) (hid : U id) {socket : String} {c : Connection}
    (hc : g.incomingAt? id socket = some c) : U c.source.node := by
  refine h.source c (mem_of_incomingAt? hc) ?_
  rwa [(target_of_incomingAt? hc).1]

theorem connected_eq (h : g.AgreesOn g' U) (hid : U n.id) (socket : String) :
    g'.connected n socket = g.connected n socket := by
  rw [connected, connected, h.incomingAt n.id socket hid]
  cases hc : g.incomingAt? n.id socket with
  | none => rfl
  | some c =>
    dsimp only
    rw [h.operation_eq (h.of_incomingAt? hid hc)]

/-- What is connected to one of the nodes is one of them. -/
theorem of_connected (h : g.AgreesOn g' U) (hid : U n.id) {socket port : String}
    {source : Operation} (hconnected : g.connected n socket = .ok (some (source, port))) :
    U source.node.id := by
  obtain ⟨c, hc, hsource, -⟩ := connected_spec hconnected
  rw [id_of_operation hsource]
  exact h.of_incomingAt? hid hc

theorem requirements_eq (h : g.AgreesOn g' U) (hid : U o.node.id) (stage : Stage) :
    o.requirements g' stage = o.requirements g stage := by
  have hunconnected : ∀ socket, g'.isUnconnected o.node socket = g.isUnconnected o.node socket := by
    intro socket
    rw [isUnconnected, isUnconnected, h.incomingAt o.node.id socket hid]
  unfold Operation.requirements
  simp only [hunconnected]

/-! ### Walks -/

section Walk

variable {w : Walk} {opened done : List String} {fuel : Nat}

theorem edges_eq (h : w.graph.AgreesOn g' U) (hid : U id) (hn : w.graph.findNode id = .ok n) :
    Walk.edges { w with graph := g' } n = w.edges n := by
  rw [Walk.edges, Walk.edges, h.incoming id n hid (findNode_eq_ok_iff.mp hn)]
  rfl

theorem of_mem_edges (h : w.graph.AgreesOn g' U) (hid : U n.id) {c : Connection}
    (hc : c ∈ w.edges n) : U c.source.node := by
  obtain ⟨hmem, htarget⟩ := mem_of_mem_incoming (Walk.mem_edges_iff.mp hc).1
  exact h.source c hmem (htarget ▸ hid)

/-- Under the same bound, visits to one of the nodes collect the same. -/
theorem visit_eq (h : w.graph.AgreesOn g' U) (hid : U id) :
    Walk.visit { w with graph := g' } fuel opened done id = w.visit fuel opened done id := by
  induction fuel generalizing opened done id with
  | zero => rfl
  | succ fuel ih =>
    by_cases hdone : id ∈ done
    · rw [Walk.visit_of_mem hdone, Walk.visit_of_mem hdone]
    by_cases hopened : id ∈ opened
    · rw [Walk.visit_of_mem_opened hdone hopened, Walk.visit_of_mem_opened hdone hopened]
    rw [Walk.visit_of_notMem hdone hopened, Walk.visit_of_notMem hdone hopened]
    show g'.findNode id >>= _ = _
    rw [h.findNode_eq hid]
    refine Outcome.bind_congr_of_ok fun n hn => ?_
    have hsources : Walk.visitSources { w with graph := g' } fuel (id :: opened) done n =
        w.visitSources fuel (id :: opened) done n := by
      rw [Walk.visitSources, Walk.visitSources, h.edges_eq hid hn]
      have hid' : U n.id := by rwa [id_of_findNode hn]
      exact Outcome.foldlM_congr fun done c hc => ih (h.of_mem_edges hid' hc)
    rw [hsources]

/-- **Walks from one of the nodes** collect the same nodes. -/
theorem collect_eq (h : w.graph.AgreesOn g' U) (houtput : U w.output) :
    Walk.collect { w with graph := g' } = w.collect := by
  -- the two graphs need not have the same number of nodes, so both walks get the larger bound
  obtain ⟨bound, hbound, hbound'⟩ : ∃ bound, w.graph.nodes.length < bound ∧
      g'.nodes.length < bound :=
    ⟨w.graph.nodes.length + g'.nodes.length + 1, by omega, by omega⟩
  calc Walk.collect { w with graph := g' }
      = Walk.visit { w with graph := g' } bound [] [] w.output :=
        Walk.visit_eq_of_lt Walk.areOpen_nil (Nat.lt_succ_self _) hbound'
    _ = w.visit bound [] [] w.output := h.visit_eq houtput
    _ = w.collect := Walk.visit_eq_of_lt Walk.areOpen_nil hbound (Nat.lt_succ_self _)

theorem of_reaches (h : w.graph.AgreesOn g' U) (houtput : U w.output) (hid : w.Reaches id) :
    U id := by
  induction hid with
  | refl => exact houtput
  | tail _ hlead ih =>
    obtain ⟨n, hn, c, hc, rfl⟩ := hlead.exists_edge
    exact h.of_mem_edges (by rwa [id_of_findNode hn]) hc

/-- **Walks stay** among the nodes they start from. -/
theorem mem_of_collect (h : w.graph.AgreesOn g' U) (houtput : U w.output) {ids : List String}
    (hids : w.collect = .ok ids) (hid : id ∈ ids) : U id :=
  h.of_reaches houtput (Walk.reaches_of_collect hids id hid)

end Walk

theorem evaluationOrder_eq (h : g.AgreesOn g' U) (houtput : U output) :
    g'.evaluationOrder output = g.evaluationOrder output :=
  h.collect_eq (w := ⟨g, output, none, fun _ _ => true⟩) houtput

theorem mem_of_evaluationOrder (h : g.AgreesOn g' U) (houtput : U output) {ids : List String}
    (hids : g.evaluationOrder output = .ok ids) : ∀ id ∈ ids, U id := fun _ hid =>
  h.mem_of_collect (w := ⟨g, output, none, fun _ _ => true⟩) houtput hids hid

/-! ### Passes -/

section Pass

variable {slots : Option (List String)} {ks : Keywords} {count : Nat} {p : Pass} {mode : Mode}

theorem liveNodes_eq (h : g.AgreesOn g' U) (houtput : U output) :
    liveNodes g' output slots ks count = liveNodes g output slots ks count := by
  have hcollect : ∀ follows, Walk.collect ⟨g', output, slots, follows⟩ =
      Walk.collect ⟨g, output, slots, follows⟩ := fun follows =>
    h.collect_eq (w := ⟨g, output, slots, follows⟩) houtput
  unfold liveNodes permutationWalk
  simp only [hcollect]

theorem mem_of_liveNodes (h : g.AgreesOn g' U) (houtput : U output) {nodes : List LiveNode}
    (hnodes : liveNodes g output slots ks count = .ok nodes) : ∀ n ∈ nodes, U n.id := by
  intro n hn
  obtain ⟨hstage, -, -⟩ := liveNodes_spec hnodes
  exact h.mem_of_collect (w := ⟨g, output, slots, fun _ _ => true⟩) houtput hstage
    (List.mem_map_of_mem hn)

theorem addLiveNode_eq (h : g.AgreesOn g' U) {n : LiveNode} (hn : U n.id) (stage : Stage)
    (state : ActiveFields × Requirements) :
    addLiveNode g' stage state n = addLiveNode g stage state n := by
  rw [addLiveNode, addLiveNode, h.operation_eq hn]
  refine Outcome.bind_congr_of_ok fun o ho => ?_
  rw [h.requirements_eq (by rwa [id_of_operation ho])]

theorem stageNodes_eq (h : g.AgreesOn g' U) (houtput : U output) (stage : Stage)
    (a : ActiveFields) :
    stageNodes g' output slots ks stage a = stageNodes g output slots ks stage a := by
  rw [stageNodes, stageNodes, h.liveNodes_eq houtput]
  refine Outcome.bind_congr_of_ok fun nodes hnodes => ?_
  have hfold : nodes.foldlM (addLiveNode g' stage) (a, Requirements.none) =
      nodes.foldlM (addLiveNode g stage) (a, Requirements.none) :=
    Outcome.foldlM_congr fun state n hn =>
      h.addLiveNode_eq (h.mem_of_liveNodes houtput hnodes n hn) stage state
  rw [hfold]

/-- **Passes have the same nodes and fields.** -/
theorem passFields_eq (h : g.AgreesOn g' U) (houtput : U output) :
    passFields g' output p mode ks = passFields g output p mode ks := by
  unfold passFields
  simp only [h.operation_eq houtput, h.stageNodes_eq houtput]

theorem mem_of_passFields (h : g.AgreesOn g' U) (houtput : U output) {r : PassFields}
    (hfields : passFields g output p mode ks = .ok r) (stage : Stage) :
    ∀ n ∈ (r.stage stage).nodes, U n.id := by
  obtain ⟨_, -, -, hnodes | ⟨hnone, -⟩⟩ := passFields_liveNodes hfields stage
  · exact h.mem_of_liveNodes houtput hnodes
  · rw [hnone]
    exact List.forall_mem_nil _

end Pass

/-! ### Types -/

/-- **Under the same bound**, outputs have the same types. -/
theorem outputTypeWithin_eq (h : g.AgreesOn g' U) (hid : U o.node.id) (fuel : Nat)
    (socket : String) : g'.outputTypeWithin fuel o socket = g.outputTypeWithin fuel o socket := by
  induction fuel generalizing o socket with
  | zero => rfl
  | succ fuel ih =>
    cases hfixed : o.fixedType? socket with
    | some t => rw [outputTypeWithin_of_fixedType? hfixed, outputTypeWithin_of_fixedType? hfixed]
    | none =>
      rw [outputTypeWithin_of_none hfixed, outputTypeWithin_of_none hfixed]
      refine Outcome.foldlM_congr fun t input _ => ?_
      rw [widen, widen, h.connected_eq hid]
      refine Outcome.bind_congr_of_ok fun connected? hconnected => ?_
      cases connected? with
      | none => rfl
      | some source =>
        dsimp only
        rw [ih (h.of_connected hid hconnected)]

end AgreesOn
end Graph
end MaterialShader
