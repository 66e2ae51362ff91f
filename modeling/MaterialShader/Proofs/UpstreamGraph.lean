import Mathlib.Data.List.Find
import MaterialShader.Proofs.GenerationAgreement
import MaterialShader.Proofs.GenerationEnd

/-!
# The graph upstream of an output

A generation starts from one node and goes from nodes to what feeds them.  So it depends on the
nodes that it can come to in this way, the nodes upstream of the output, and on the connections
into them.  The other nodes and connections of a graph can be anything, and of the nodes
themselves it only matters which one is found under an id.

Which node a recursion over types names when it meets its bound depends on the number of nodes,
and so on nodes that are not upstream of the output.  Such a recursion goes round in a circle, so
this is said of generations that end.

## Main definitions

* `Graph.IsUpstream` — the nodes upstream of an output.
* `Graph.SameUpstream` — two graphs are the same upstream of an output.
* `Generator.SameOutcome` — two generations have one outcome, or do not end.

## Main results

* `Graph.SameUpstream.agreesUnless` — graphs that are the same upstream of an output agree on it.
* `Generator.generate_upstream` — what the outcome of a generation depends on.
-/

namespace MaterialShader

open GenerationError (IsCycle)
open Outcome (FailsWith SameUnless)

namespace Graph

/-! ### Upstream nodes -/

/-- The nodes upstream of an output: the output, and the source of every connection into one of
them. -/
inductive IsUpstream (g : Graph) (output : String) : String → Prop where
  /-- The output is one of them. -/
  | output : IsUpstream g output output
  /-- What feeds one of them is one of them. -/
  | source {c : Connection} (hc : c ∈ g.connections)
      (htarget : IsUpstream g output c.target.node) : IsUpstream g output c.source.node

open Classical in
/-- The nodes of some ids, in the order of the graph. -/
noncomputable def nodesAmong (g : Graph) (U : String → Prop) : List Node :=
  g.nodes.filter fun n => U n.id

open Classical in
/-- The connections into nodes of some ids, in the order of the graph. -/
noncomputable def connectionsInto (g : Graph) (U : String → Prop) : List Connection :=
  g.connections.filter fun c => U c.target.node

variable {g g' : Graph} {U : String → Prop} {output id socket : String} {c : Connection}

theorem mem_connectionsInto :
    c ∈ g.connectionsInto U ↔ c ∈ g.connections ∧ U c.target.node := by
  classical
  rw [connectionsInto, List.mem_filter, decide_eq_true_iff]

/-- A node is found among those of its id. -/
theorem node?_eq_of_nodesAmong (hid : U id) (h : g'.nodesAmong U = g.nodesAmong U) :
    g'.node? id = g.node? id := by
  classical
  have hfind : ∀ g : Graph, g.node? id = (g.nodesAmong U).find? fun n => n.id == id := by
    intro g
    rw [node?, nodesAmong, List.find?_filter]
    refine List.find?_congr fun n _ => ?_
    by_cases hn : n.id = id
    · simp [hn, hid]
    · simp [hn]
  rw [hfind, hfind, h]

/-- What feeds a socket is found among the connections into its node. -/
theorem incomingAt?_eq_of_connectionsInto (hid : U id)
    (h : g'.connectionsInto U = g.connectionsInto U) :
    g'.incomingAt? id socket = g.incomingAt? id socket := by
  classical
  have hfind : ∀ g : Graph, g.incomingAt? id socket =
      (g.connectionsInto U).find? (entersSocket id socket) := by
    intro g
    rw [incomingAt?, connectionsInto, List.find?_filter]
    refine List.find?_congr fun c _ => ?_
    by_cases hc : c.target.node = id
    · simp [hc, hid]
    · simp [entersSocket, hc]
  rw [hfind, hfind, h]

/-- What feeds a node is found among the connections into it. -/
theorem incoming_eq_of_connectionsInto {n : Node} (hn : U n.id)
    (h : g'.connectionsInto U = g.connectionsInto U) : g'.incoming n = g.incoming n := by
  classical
  have hfold : ∀ g : Graph, ∀ found, g.connections.foldl (addIncoming n.id) found =
      (g.connectionsInto U).foldl (addIncoming n.id) found := by
    intro g found
    rw [connectionsInto, List.foldl_filter]
    refine congrArg (fun f => g.connections.foldl f found) (funext₂ fun found c => ?_)
    by_cases hc : c.target.node = n.id
    · rw [hc, if_pos (decide_eq_true hn)]
    · unfold addIncoming
      simp [hc]
  have hdeclared : g'.declaredIncoming n = g.declaredIncoming n := by
    unfold declaredIncoming
    simp only [incomingAt?_eq_of_connectionsInto hn h]
  rw [incoming, incoming, hfold, hfold, h, hdeclared]

/-! ### Graphs that are the same upstream of an output -/

/-- Two graphs are the same upstream of an output: they say the same about themselves, the same
nodes are found upstream of the output, and the same connections lead into them. -/
structure SameUpstream (g g' : Graph) (output : String) : Prop where
  /-- They say the same about themselves. -/
  metadata : g'.metadata = g.metadata
  /-- They declare the same keywords. -/
  keywords : g'.keywords = g.keywords
  /-- They are made for the same targets. -/
  targets : g'.targets = g.targets
  /-- Under the id of a node upstream of the output, both find the same node, or none. -/
  node : ∀ id, g.IsUpstream output id → g'.node? id = g.node? id
  /-- The connections into nodes upstream of the output are the same, in the same order. -/
  connections : g'.connectionsInto (g.IsUpstream output) = g.connectionsInto (g.IsUpstream output)

namespace SameUpstream

theorem mem_connections_iff (h : g.SameUpstream g' output)
    (htarget : g.IsUpstream output c.target.node) : c ∈ g'.connections ↔ c ∈ g.connections := by
  have hmem : c ∈ g'.connectionsInto (g.IsUpstream output) ↔
      c ∈ g.connectionsInto (g.IsUpstream output) := by rw [h.connections]
  rw [mem_connectionsInto, mem_connectionsInto] at hmem
  simpa [htarget] using hmem

/-- The same nodes are upstream of the output in both graphs. -/
theorem isUpstream_iff (h : g.SameUpstream g' output) :
    g'.IsUpstream output id ↔ g.IsUpstream output id := by
  constructor
  · intro hid
    induction hid with
    | output => exact .output
    | source hc _ ih => exact .source ((h.mem_connections_iff ih).mp hc) ih
  · intro hid
    induction hid with
    | output => exact .output
    | source hc htarget ih => exact .source ((h.mem_connections_iff htarget).mpr hc) ih

theorem symm (h : g.SameUpstream g' output) : g'.SameUpstream g output where
  metadata := h.metadata.symm
  keywords := h.keywords.symm
  targets := h.targets.symm
  node := fun id hid => (h.node id (h.isUpstream_iff.mp hid)).symm
  connections := by
    have hupstream : g'.IsUpstream output = g.IsUpstream output :=
      funext fun _ => propext h.isUpstream_iff
    rw [hupstream, h.connections]

theorem agreesOn (h : g.SameUpstream g' output) : g.AgreesOn g' (g.IsUpstream output) where
  node := h.node
  incomingAt := fun _ _ hid => incomingAt?_eq_of_connectionsInto hid h.connections
  incoming := fun id n hid hn => by
    refine incoming_eq_of_connectionsInto ?_ h.connections
    rwa [id_of_node? hn]
  source := fun _ hc htarget => .source hc htarget

/-- **Graphs that are the same upstream of an output** agree on what is upstream of it; where the
first settles the type of an output, they agree on the type. -/
theorem agreesUnless (h : g.SameUpstream g' output) :
    g.AgreesUnless IsCycle g' (g.IsUpstream output) where
  toAgreesOn := h.agreesOn
  types := by
    intro o hid socket
    by_cases hcycle : FailsWith IsCycle (g.outputType o socket)
    · exact Or.inl hcycle
    -- the type that the first bound settles, the second one settles as well
    have htype : g'.outputTypeWithin (g.nodes.length + 1) o socket = g.outputType o socket :=
      h.agreesOn.outputTypeWithin_eq hid _ socket
    refine Or.inr ?_
    rw [← htype] at hcycle ⊢
    exact outputTypeWithin_eq_of_not_failsWith hcycle (Nat.lt_succ_self _)

end SameUpstream

/-- Nodes that have the output among them, and whatever feeds one of them, have everything upstream
of it among them. -/
theorem mem_of_isUpstream {ids : List String} (houtput : output ∈ ids)
    (hclosed : ∀ c ∈ g.connections, c.target.node ∈ ids → c.source.node ∈ ids)
    (hid : g.IsUpstream output id) : id ∈ ids := by
  induction hid with
  | output => exact houtput
  | source hc _ ih => exact hclosed _ hc ih

/-- Graphs that agree on such nodes are the same upstream of the output. -/
theorem sameUpstream_of_closed {ids : List String} (houtput : output ∈ ids)
    (hclosed : ∀ c ∈ g.connections, c.target.node ∈ ids → c.source.node ∈ ids)
    (hmetadata : g'.metadata = g.metadata) (hkeywords : g'.keywords = g.keywords)
    (htargets : g'.targets = g.targets) (hnode : ∀ id ∈ ids, g'.node? id = g.node? id)
    (hconnections : (g'.connections.filter fun c => c.target.node ∈ ids) =
      g.connections.filter fun c => c.target.node ∈ ids) : g.SameUpstream g' output where
  metadata := hmetadata
  keywords := hkeywords
  targets := htargets
  node := fun id hid => hnode id (mem_of_isUpstream houtput hclosed hid)
  connections := by
    classical
    have hfilter : ∀ h : Graph, h.connectionsInto (g.IsUpstream output) =
        (h.connections.filter fun c => c.target.node ∈ ids).filter fun c =>
          g.IsUpstream output c.target.node := by
      intro h
      rw [connectionsInto, List.filter_filter]
      refine List.filter_congr fun c _ => ?_
      by_cases hc : g.IsUpstream output c.target.node
      · simp [hc, mem_of_isUpstream houtput hclosed hc]
      · simp [hc]
    rw [hfilter, hfilter, hconnections]

/-- Where no two nodes have one id, their order does not matter to which is found. -/
theorem node?_eq_of_perm {nodes : List Node} (hperm : nodes.Perm g.nodes)
    (hdistinct : (g.nodes.map Node.id).Nodup) (id : String) :
    Graph.node? { g with nodes } id = g.node? id := by
  refine (List.find?_eq_find?_of_perm hperm.symm ?_).symm
  intro n hn m hm
  have hids : n.id = m.id := (beq_iff_eq.mp hn.2).trans (beq_iff_eq.mp hm.2).symm
  exact List.inj_on_of_nodup_map hdistinct hn.1 hm.1 hids

end Graph

/-! ### Generations -/

namespace Generator

variable {s : Generator} {g' : Graph} {output : String} {mode : Mode}

/-- If one of two generations ends, so does the other, with the same outcome. -/
def SameOutcome (s s' : Generator) (output : String) (mode : Mode) : Prop :=
  (s'.Ends output mode ↔ s.Ends output mode) ∧
    (s.Ends output mode → s'.generate output mode = s.generate output mode)

theorem generate_eq_of_sameUpstream (h : s.graph.SameUpstream g' output)
    (hends : s.Ends output mode) :
    (s.withGraph g').generate output mode = s.generate output mode := by
  cases hwalk : s.graph.evaluationOrder output with
  | error e =>
    have hwalk' : (s.withGraph g').graph.evaluationOrder output = .error e :=
      (h.agreesOn.evaluationOrder_eq .output).trans hwalk
    rw [generate_eq_error hwalk, generate_eq_error hwalk']
  | ok ids =>
    have hsame : SameUnless IsCycle (s.generate output mode)
        ((s.withGraph g').generate output mode) :=
      sameUnless_generate h.agreesUnless h.metadata h.keywords h.targets .output
    exact hsame.eq_of_not (hends ids hwalk)

theorem ends_of_sameUpstream (h : s.graph.SameUpstream g' output) (hends : s.Ends output mode) :
    (s.withGraph g').Ends output mode := by
  intro ids hids
  rw [generate_eq_of_sameUpstream h hends]
  exact hends ids ((h.agreesOn.evaluationOrder_eq .output).symm.trans hids)

theorem sameOutcome_of_sameUpstream (h : s.graph.SameUpstream g' output) (mode : Mode) :
    s.SameOutcome (s.withGraph g') output mode :=
  ⟨⟨fun hends => ends_of_sameUpstream (s := s.withGraph g') h.symm hends, ends_of_sameUpstream h⟩,
    generate_eq_of_sameUpstream h⟩

/-- **What the outcome of a generation depends on.**  The graphs that are the same upstream of its
output have the same outcome: the same shader or the same error, if the generation ends, and
otherwise it does not end for the other graph either.  So the order of nodes with different ids
does not matter, nor do nodes that are not upstream and connections that do not lead into what
is. -/
theorem generate_upstream :
    (∀ (s : Generator) (g' : Graph) (output : String), s.graph.SameUpstream g' output →
        ∀ mode, s.SameOutcome (s.withGraph g') output mode) ∧
      (∀ (s : Generator) (nodes : List Node), nodes.Perm s.graph.nodes →
        (s.graph.nodes.map Node.id).Nodup →
          ∀ output mode, s.SameOutcome (s.withGraph { s.graph with nodes }) output mode) ∧
      ∀ (s : Generator) (nodes : List Node) (connections : List Connection) (output : String),
        Graph.nodesAmong { s.graph with nodes, connections } (s.graph.IsUpstream output) =
          s.graph.nodesAmong (s.graph.IsUpstream output) →
        Graph.connectionsInto { s.graph with nodes, connections } (s.graph.IsUpstream output) =
          s.graph.connectionsInto (s.graph.IsUpstream output) →
        ∀ mode, s.SameOutcome (s.withGraph { s.graph with nodes, connections }) output mode := by
  refine ⟨fun s g' output h => sameOutcome_of_sameUpstream h, ?_, ?_⟩
  · intro s nodes hperm hdistinct output
    refine sameOutcome_of_sameUpstream ⟨rfl, rfl, rfl, fun id _ => ?_, rfl⟩
    exact Graph.node?_eq_of_perm hperm hdistinct id
  · intro s nodes connections output hnodes hconnections
    refine sameOutcome_of_sameUpstream ⟨rfl, rfl, rfl, fun id hid => ?_, hconnections⟩
    exact Graph.node?_eq_of_nodesAmong hid hnodes

/-- A product of a colour with itself. -/
def squareGraph : Graph where
  version := "1"
  metadata := { name := "Square" }
  nodes := [
    { id := "out", type := "Master", inputs := [{ id := "BaseColor" }] },
    { id := "mul", type := "Multiply", inputs := [{ id := "A" }, { id := "B" }] },
    { id := "tint", type := "Color" }]
  connections := [
    ⟨"c1", ⟨"mul", "Out"⟩, ⟨"out", "BaseColor"⟩⟩,
    ⟨"c2", ⟨"tint", "Out"⟩, ⟨"mul", "A"⟩⟩,
    ⟨"c3", ⟨"tint", "Out"⟩, ⟨"mul", "B"⟩⟩]

/-- The product in another place of the list, a second node of its id behind it, and a sum that
nothing reads, fed by the product and by itself. -/
def clutteredGraph : Graph where
  version := "2"
  metadata := { name := "Square" }
  nodes := [
    { id := "mul", type := "Multiply", inputs := [{ id := "A" }, { id := "B" }] },
    { id := "mul", type := "Float" },
    { id := "sum", type := "Add", inputs := [{ id := "A" }, { id := "B" }] },
    { id := "out", type := "Master", inputs := [{ id := "BaseColor" }] },
    { id := "tint", type := "Color" }]
  connections := [
    ⟨"c4", ⟨"sum", "Out"⟩, ⟨"sum", "A"⟩⟩,
    ⟨"c1", ⟨"mul", "Out"⟩, ⟨"out", "BaseColor"⟩⟩,
    ⟨"c2", ⟨"tint", "Out"⟩, ⟨"mul", "A"⟩⟩,
    ⟨"c5", ⟨"mul", "Out"⟩, ⟨"sum", "B"⟩⟩,
    ⟨"c3", ⟨"tint", "Out"⟩, ⟨"mul", "B"⟩⟩]

theorem generate_upstream_cluttered : squareGraph.SameUpstream clutteredGraph "out" ∧
    ∃ shader, (shippedWith squareGraph).generate "out" .final = .ok shader ∧
      (shippedWith clutteredGraph).generate "out" .final = .ok shader ∧
      ((shippedWith squareGraph).withGraph
        { squareGraph with nodes := squareGraph.nodes.reverse }).generate "out" .final =
          .ok shader ∧
      ((shippedWith squareGraph).withGraph
        { squareGraph with
          nodes := { id := "sum", type := "Add" } :: squareGraph.nodes
          connections := ⟨"c4", ⟨"sum", "Out"⟩, ⟨"sum", "A"⟩⟩ :: squareGraph.connections
          }).generate "out" .final = .ok shader := by
  have hclosed : ∀ c ∈ squareGraph.connections, c.target.node ∈ ["out", "mul", "tint"] →
      c.source.node ∈ ["out", "mul", "tint"] := by decide
  have hsame : squareGraph.SameUpstream clutteredGraph "out" := by
    refine Graph.sameUpstream_of_closed (by decide) hclosed rfl rfl rfl ?_ (by decide)
    simp only [List.forall_mem_cons]
    exact ⟨rfl, rfl, rfl, List.forall_mem_nil _⟩
  have hsum : ¬squareGraph.IsUpstream "out" "sum" := fun h =>
    absurd (Graph.mem_of_isUpstream (by decide) hclosed h) (by decide)
  have hkind : ∀ id ∈ ["tint", "mul", "out"],
      ∃ o, squareGraph.operation id = .ok o ∧ o.kind ≠ .keyword :=
    Graph.exists_operation_of_check (by decide)
  have hwalked : squareGraph.IsWalked "out" ["tint", "mul", "out"] :=
    { distinct := by decide
      walk := by decide +kernel
      known := fun id hid => (hkind id hid).imp fun _ => And.left }
  obtain ⟨shader, hshader⟩ : ∃ shader,
      (shippedWith squareGraph).generate "out" .final = .ok shader :=
    exists_generate_shipped hwalked (List.forall_mem_nil _) rfl rfl Shipped.isIn_storeIn hkind
  have hends : (shippedWith squareGraph).Ends "out" .final := ends_of_isWalked hwalked .final
  obtain ⟨hupstream, hperm, hadded⟩ := generate_upstream
  refine ⟨hsame, shader, hshader, ?_, ?_, ?_⟩
  · obtain ⟨-, hgenerate⟩ := hupstream (shippedWith squareGraph) clutteredGraph "out" hsame .final
    exact (hgenerate hends).trans hshader
  · obtain ⟨-, hgenerate⟩ := hperm (shippedWith squareGraph) squareGraph.nodes.reverse
      (List.reverse_perm _) (by decide) "out" .final
    exact (hgenerate hends).trans hshader
  · classical
    obtain ⟨-, hgenerate⟩ := hadded (shippedWith squareGraph)
      ({ id := "sum", type := "Add" } :: squareGraph.nodes)
      (⟨"c4", ⟨"sum", "Out"⟩, ⟨"sum", "A"⟩⟩ :: squareGraph.connections) "out"
      (List.filter_cons_of_neg fun h => hsum (of_decide_eq_true h))
      (List.filter_cons_of_neg fun h => hsum (of_decide_eq_true h)) .final
    exact (hgenerate hends).trans hshader

end Generator
end MaterialShader
