import Mathlib.Data.List.Find
import MaterialShader.Proofs.GenerationAgreement
import MaterialShader.Proofs.GenerationError

/-!
# The order of connections

The order of the connections of a graph matters in two places: of several connections into one
socket the first feeds it, and connections into sockets that a node does not declare are followed
in the order of the graph.  Where every connection has a declared socket to itself there are no
such places, and the order of the connections changes nothing: what feeds a node is read off in the
order of its sockets.

## Main definitions

* `Graph.FeedsOnce` — every connection has a declared socket to itself.

## Main results

* `Graph.FeedsOnce.incoming_eq` — what feeds a node is what feeds its declared sockets.
* `Graph.FeedsOnce.agreesUnless_of_perm` — the graph agrees with its rearrangements.
* `Generator.generate_eq_of_perm` — the shader does not depend on the order of connections.
-/

namespace MaterialShader
namespace Graph

/-- Every connection into a node of the graph goes into a socket that the node declares, and no two
connections go into one socket of one node. -/
structure FeedsOnce (g : Graph) : Prop where
  /-- The sockets are declared. -/
  declared : ∀ c ∈ g.connections, ∀ n, g.node? c.target.node = some n →
    c.target.socket ∈ n.inputs.map Socket.id
  /-- No two connections share a socket. -/
  distinct : (g.connections.map Connection.target).Nodup

variable {g : Graph} {connections : List Connection} {c d : Connection} {n : Node} {id : String}

instance decidableFeedsOnce (g : Graph) : Decidable g.FeedsOnce :=
  decidable_of_iff ((∀ c ∈ g.connections, ∀ n ∈ g.node? c.target.node,
      c.target.socket ∈ n.inputs.map Socket.id) ∧ (g.connections.map Connection.target).Nodup)
    ⟨fun h => ⟨h.1, h.2⟩, fun h => ⟨h.declared, h.distinct⟩⟩

/-- Nothing is added to connections that have every connection into the node among them. -/
theorem foldl_addIncoming_eq_self {node : String} {cs found : List Connection}
    (h : ∀ c ∈ cs, c.target.node = node → c ∈ found) :
    cs.foldl (addIncoming node) found = found := by
  induction cs with
  | nil => rfl
  | cons c cs ih =>
    obtain ⟨hc, hcs⟩ := List.forall_mem_cons.mp h
    have hkept : addIncoming node found c = found :=
      if_neg fun hadded => hadded.2 (List.mem_map_of_mem (hc hadded.1))
    rw [List.foldl_cons, hkept, ih hcs]

namespace FeedsOnce

/-- A socket is entered by one connection at most. -/
theorem eq_of_entersSocket (h : g.FeedsOnce) {socket : String} (hc : c ∈ g.connections)
    (hd : d ∈ g.connections) (hcenters : entersSocket id socket c = true)
    (hdenters : entersSocket id socket d = true) : c = d := by
  refine List.inj_on_of_nodup_map h.distinct hc hd ?_
  rw [entersSocket, Bool.and_eq_true, beq_iff_eq, beq_iff_eq] at hcenters hdenters
  obtain ⟨hcnode, hcsocket⟩ := hcenters
  obtain ⟨hdnode, hdsocket⟩ := hdenters
  calc c.target = ⟨id, socket⟩ := by rw [← hcnode, ← hcsocket]
    _ = d.target := by rw [← hdnode, ← hdsocket]

/-- A connection feeds the socket that it goes into. -/
theorem incomingAt?_target (h : g.FeedsOnce) (hc : c ∈ g.connections) :
    g.incomingAt? c.target.node c.target.socket = some c := by
  have henters : entersSocket c.target.node c.target.socket c = true := by simp [entersSocket]
  cases hfound : g.incomingAt? c.target.node c.target.socket with
  | none => exact absurd henters (List.find?_eq_none.mp hfound c hc)
  | some d =>
    rw [h.eq_of_entersSocket (mem_of_incomingAt? hfound) hc (List.find?_some hfound) henters]

/-- **What feeds a node** is what feeds its declared sockets. -/
theorem incoming_eq (h : g.FeedsOnce) (hn : g.node? id = some n) :
    g.incoming n = g.declaredIncoming n := by
  refine foldl_addIncoming_eq_self fun c hc htarget => ?_
  have hid : g.node? c.target.node = some n := by rwa [htarget, id_of_node? hn]
  obtain ⟨socket, hsocket, heq⟩ := List.mem_map.mp (h.declared c hc n hid)
  refine List.mem_filterMap.mpr ⟨socket, hsocket, ?_⟩
  rw [heq, ← htarget]
  exact h.incomingAt?_target hc

/-! ### Rearrangements -/

theorem of_perm (h : g.FeedsOnce) (hperm : connections.Perm g.connections) :
    FeedsOnce { g with connections } where
  declared := fun c hc => h.declared c (hperm.mem_iff.mp hc)
  distinct := (hperm.map Connection.target).nodup_iff.mpr h.distinct

theorem incomingAt?_of_perm (h : g.FeedsOnce) (hperm : connections.Perm g.connections)
    (id socket : String) :
    Graph.incomingAt? { g with connections } id socket = g.incomingAt? id socket :=
  (List.find?_eq_find?_of_perm hperm.symm fun _ hc _ hd =>
    h.eq_of_entersSocket hc.1 hd.1 hc.2 hd.2).symm

theorem agreesOn_of_perm (h : g.FeedsOnce) (hperm : connections.Perm g.connections) :
    g.AgreesOn { g with connections } fun _ => True where
  node := fun _ _ => rfl
  incomingAt := fun id socket _ => h.incomingAt?_of_perm hperm id socket
  incoming := by
    intro id n _ hn
    have hdeclared : Graph.declaredIncoming { g with connections } n = g.declaredIncoming n := by
      unfold declaredIncoming
      simp only [h.incomingAt?_of_perm hperm]
    rw [(h.of_perm hperm).incoming_eq hn, h.incoming_eq hn, hdeclared]
  source := fun _ _ _ => trivial

/-- **The graph agrees with its rearrangements**, also on types. -/
theorem agreesUnless_of_perm (h : g.FeedsOnce) (hperm : connections.Perm g.connections) :
    g.AgreesUnless (fun _ => False) { g with connections } fun _ => True where
  toAgreesOn := h.agreesOn_of_perm hperm
  types := fun _ _ socket =>
    -- the bound is the same, since the nodes are
    Or.inr ((h.agreesOn_of_perm hperm).outputTypeWithin_eq trivial _ socket)

end FeedsOnce
end Graph

namespace Generator

/-- **The shader does not depend on the order of connections**, where every connection has a
declared socket to itself: the outcome is the same shader or the same error. -/
theorem generate_eq_of_perm (s : Generator) (h : s.graph.FeedsOnce)
    {connections : List Connection} (hperm : connections.Perm s.graph.connections)
    (output : String) (mode : Mode) :
    (s.withGraph { s.graph with connections }).generate output mode = s.generate output mode := by
  have hsame : Outcome.SameUnless (fun _ => False) (s.generate output mode)
      ((s.withGraph { s.graph with connections }).generate output mode) :=
    sameUnless_generate (h.agreesUnless_of_perm hperm) rfl rfl rfl trivial
  exact hsame.eq_of_not fun ⟨_, _, hfalse⟩ => hfalse

/-- A product of two numbers, one of which is also the opacity. -/
def sharedGraph : Graph where
  version := "1"
  metadata := { name := "Shared" }
  nodes := [
    { id := "out", type := "Master", inputs := [{ id := "BaseColor" }, { id := "Alpha" }] },
    { id := "mul", type := "Multiply", inputs := [{ id := "A" }, { id := "B" }] },
    { id := "a", type := "Float" },
    { id := "b", type := "Float" }]
  connections := [
    ⟨"c1", ⟨"mul", "Out"⟩, ⟨"out", "BaseColor"⟩⟩,
    ⟨"c2", ⟨"b", "Out"⟩, ⟨"out", "Alpha"⟩⟩,
    ⟨"c3", ⟨"a", "Out"⟩, ⟨"mul", "A"⟩⟩,
    ⟨"c4", ⟨"b", "Out"⟩, ⟨"mul", "B"⟩⟩]

theorem generate_eq_of_perm_shared : sharedGraph.FeedsOnce ∧
    sharedGraph.connections.reverse.Perm sharedGraph.connections ∧ ∃ shader,
      (shippedWith sharedGraph).generate "out" .final = .ok shader ∧
        ((shippedWith sharedGraph).withGraph { sharedGraph with
          connections := sharedGraph.connections.reverse }).generate "out" .final =
            .ok shader := by
  have hfeeds : sharedGraph.FeedsOnce := by decide
  have hperm : sharedGraph.connections.reverse.Perm sharedGraph.connections := List.reverse_perm _
  have hkind : ∀ id ∈ ["a", "b", "mul", "out"],
      ∃ o, sharedGraph.operation id = .ok o ∧ o.kind ≠ .keyword :=
    Graph.exists_operation_of_check (by decide)
  have hwalked : sharedGraph.IsWalked "out" ["a", "b", "mul", "out"] :=
    { distinct := by decide
      walk := by decide +kernel
      known := fun id hid => (hkind id hid).imp fun _ => And.left }
  obtain ⟨shader, hshader⟩ : ∃ shader,
      (shippedWith sharedGraph).generate "out" .final = .ok shader :=
    exists_generate_shipped hwalked (List.forall_mem_nil _) rfl rfl Shipped.isIn_storeIn hkind
  refine ⟨hfeeds, hperm, shader, hshader, ?_⟩
  rw [← hshader]
  exact generate_eq_of_perm (shippedWith sharedGraph) hfeeds hperm "out" .final

/-- Without declared sockets, the order of the walk is that of the connections. -/
example :
    let g : Graph := { sharedGraph with
      nodes := sharedGraph.nodes.map fun n => { n with inputs := [] } }
    g.evaluationOrder "out" = .ok ["a", "b", "mul", "out"] ∧
      Graph.evaluationOrder { g with connections := g.connections.reverse } "out" =
        .ok ["b", "a", "mul", "out"] := by decide +kernel

end Generator
end MaterialShader
