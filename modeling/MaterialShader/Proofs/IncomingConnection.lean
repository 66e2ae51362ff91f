import Mathlib.Data.List.Nodup
import MaterialShader.Graph.Decode
import MaterialShader.Node.Code
import MaterialShader.Proofs.GraphAgreement

/-!
# Connections that are overlooked

What feeds a node is found in two passes: first by its declared sockets, each with the first
connection into it, then through all connections of the graph, leaving out those that are there
already.  The second pass tells connections by their ids, and no document is refused for using an
id twice.  So a connection is overlooked if another one of its id was found before it, whichever
socket that one goes into.  The code of a node does not look at ids, and may read an input whose
source no walk has come to.

Connections that feed declared sockets are found by the first pass and never overlooked, and they
are listed twice if their socket is declared twice.  All else is as it should be.

## Main definitions

* `Graph.Overlooks` — another connection of its id stands in the way of a connection.
* `Graph.DeclaresOnce` — no connected socket is declared twice.
* `Graph.ListsIncoming` — a list of all connections into a node, each once and in order.

## Main results

* `Graph.mem_incoming_iff` — which connections feed a node.
* `Graph.listsIncoming_iff` — when these are all connections into it, each once.
* `Graph.exists_connection_overlooked` — a graph with a connection that is overlooked.
-/

namespace MaterialShader
namespace Graph

variable {g : Graph} {n : Node} {c : Connection} {node : String} {cs found : List Connection}

/-! ### Adding connections by their ids -/

/-- The first connection into a node that has an id. -/
def firstOfId? (cs : List Connection) (node id : String) : Option Connection :=
  cs.find? fun d => d.target.node == node && d.id == id

theorem firstOfId?_cons (d : Connection) (cs : List Connection) (node id : String) :
    firstOfId? (d :: cs) node id =
      if d.target.node = node ∧ d.id = id then some d else firstOfId? cs node id := by
  by_cases h : d.target.node = node ∧ d.id = id
  · rw [if_pos h]
    exact List.find?_cons_of_pos (by simp [h])
  · rw [if_neg h]
    exact List.find?_cons_of_neg (by simpa using h)

theorem spec_of_firstOfId? {id : String} (h : firstOfId? cs node id = some c) :
    c ∈ cs ∧ c.target.node = node ∧ c.id = id := by
  have htest := List.find?_some h
  rw [Bool.and_eq_true, beq_iff_eq, beq_iff_eq] at htest
  exact ⟨List.mem_of_find?_eq_some h, htest⟩

/-- **What is added to the connections found so far**: of each id that is not among theirs, the
first connection into the node. -/
theorem foldl_addIncoming_spec (node : String) (cs found : List Connection) :
    ∃ rest, cs.foldl (addIncoming node) found = found ++ rest ∧ rest.Sublist cs ∧ rest.Nodup ∧
      ∀ c, c ∈ rest ↔ c.id ∉ found.map Connection.id ∧ firstOfId? cs node c.id = some c := by
  induction cs generalizing found with
  | nil => exact ⟨[], (List.append_nil _).symm, List.Sublist.refl _, List.nodup_nil, by
      simp [firstOfId?]⟩
  | cons d cs ih =>
    rw [List.foldl_cons]
    by_cases hadded : d.target.node = node ∧ d.id ∉ found.map Connection.id
    · -- it is added, and no later connection of its id will be
      obtain ⟨rest, heq, hsub, hnodup, hmem⟩ := ih (found ++ [d])
      have hnot : d ∉ rest := by
        intro hd
        have := ((hmem d).mp hd).1
        simp at this
      refine ⟨d :: rest, ?_, hsub.cons_cons d, List.nodup_cons.mpr ⟨hnot, hnodup⟩, fun c => ?_⟩
      · rw [addIncoming, if_pos hadded, heq, List.append_assoc, List.singleton_append]
      · rw [List.mem_cons, hmem, firstOfId?_cons, List.map_append, List.mem_append, not_or]
        by_cases hid : d.id = c.id
        · rw [if_pos ⟨hadded.1, hid⟩]
          constructor
          · rintro (rfl | ⟨⟨-, hne⟩, -⟩)
            · exact ⟨hadded.2, rfl⟩
            · simp [hid] at hne
          · rintro ⟨-, heq⟩
            exact Or.inl (Option.some.inj heq).symm
        · rw [if_neg fun h => hid h.2]
          constructor
          · rintro (rfl | ⟨⟨hfound, -⟩, hfirst⟩)
            · exact absurd rfl hid
            · exact ⟨hfound, hfirst⟩
          · rintro ⟨hfound, hfirst⟩
            exact Or.inr ⟨⟨hfound, by simpa using Ne.symm hid⟩, hfirst⟩
    · obtain ⟨rest, heq, hsub, hnodup, hmem⟩ := ih found
      refine ⟨rest, ?_, hsub.cons d, hnodup, fun c => ?_⟩
      · rw [addIncoming, if_neg hadded, heq]
      · rw [hmem, firstOfId?_cons]
        refine and_congr_right fun hfound => ?_
        rw [if_neg]
        rintro ⟨hnode, hid⟩
        exact hadded ⟨hnode, hid ▸ hfound⟩

/-! ### Which connections feed a node -/

/-- Another connection of its id stands in the way of a connection: it does not feed a declared
socket, and another one does or is the first into the node. -/
def Overlooks (g : Graph) (n : Node) (c : Connection) : Prop :=
  c ∉ g.declaredIncoming n ∧
    (c.id ∈ (g.declaredIncoming n).map Connection.id ∨
      firstOfId? g.connections n.id c.id ≠ some c)

/-- No socket that a connection goes into is declared twice. -/
def DeclaresOnce (g : Graph) (n : Node) : Prop :=
  ((n.inputs.filter fun s => (g.incomingAt? n.id s.id).isSome).map Socket.id).Nodup

theorem mem_declaredIncoming :
    c ∈ g.declaredIncoming n ↔
      ∃ s ∈ n.inputs, s.id = c.target.socket ∧ g.incomingAt? n.id c.target.socket = some c := by
  rw [declaredIncoming, List.mem_filterMap]
  refine exists_congr fun s => and_congr_right fun _ => ?_
  constructor
  · intro h
    have hsocket := (target_of_incomingAt? h).2
    exact ⟨hsocket.symm, hsocket ▸ h⟩
  · rintro ⟨hid, h⟩
    rwa [hid]

theorem incoming_eq_append (g : Graph) (n : Node) :
    ∃ rest, g.incoming n = g.declaredIncoming n ++ rest ∧ rest.Sublist g.connections ∧
      rest.Nodup ∧ ∀ c, c ∈ rest ↔ c.id ∉ (g.declaredIncoming n).map Connection.id ∧
        firstOfId? g.connections n.id c.id = some c :=
  foldl_addIncoming_spec n.id g.connections (g.declaredIncoming n)

/-- **A connection feeds its node unless it is overlooked.** -/
theorem mem_incoming_iff :
    c ∈ g.incoming n ↔ c ∈ g.connections ∧ c.target.node = n.id ∧ ¬g.Overlooks n c := by
  obtain ⟨rest, heq, -, -, hmem⟩ := g.incoming_eq_append n
  rw [heq, List.mem_append, hmem, Overlooks]
  constructor
  · rintro (h | ⟨hid, hfirst⟩)
    · obtain ⟨s, -, -, hfound⟩ := mem_declaredIncoming.mp h
      exact ⟨mem_of_incomingAt? hfound, (target_of_incomingAt? hfound).1, fun hnot => hnot.1 h⟩
    · obtain ⟨hc, hnode, -⟩ := spec_of_firstOfId? hfirst
      refine ⟨hc, hnode, ?_⟩
      rintro ⟨-, hother | hother⟩
      · exact hid hother
      · exact hother hfirst
  · rintro ⟨-, -, hnot⟩
    by_cases h : c ∈ g.declaredIncoming n
    · exact Or.inl h
    · simp only [h, not_false_eq_true, true_and, not_or, not_not] at hnot
      exact Or.inr hnot

/-- A declared socket is told by the connection that feeds it. -/
theorem map_socket_declaredIncoming (g : Graph) (n : Node) :
    (g.declaredIncoming n).map (fun c => c.target.socket) =
      (n.inputs.filter fun s => (g.incomingAt? n.id s.id).isSome).map Socket.id := by
  unfold declaredIncoming
  induction n.inputs with
  | nil => rfl
  | cons s inputs ih =>
    cases h : g.incomingAt? n.id s.id with
    | none => simp [h, ih]
    | some c => simp [h, ih, (target_of_incomingAt? h).2]

/-- **A connection is listed twice** exactly if it feeds a socket that is declared twice. -/
theorem nodup_incoming_iff : (g.incoming n).Nodup ↔ g.DeclaresOnce n := by
  obtain ⟨rest, heq, -, hnodup, hmem⟩ := g.incoming_eq_append n
  have hdisjoint : (g.declaredIncoming n).Disjoint rest := by
    intro c hc hrest
    exact ((hmem c).mp hrest).1 (List.mem_map_of_mem hc)
  rw [DeclaresOnce, ← map_socket_declaredIncoming, heq, List.nodup_append']
  constructor
  · rintro ⟨hdeclared, -, -⟩
    refine hdeclared.map_on fun c hc d hd hsocket => ?_
    obtain ⟨_, -, -, hcfound⟩ := mem_declaredIncoming.mp hc
    obtain ⟨_, -, -, hdfound⟩ := mem_declaredIncoming.mp hd
    rw [hsocket, hdfound] at hcfound
    exact (Option.some.inj hcfound).symm
  · intro hsockets
    exact ⟨.of_map _ hsockets, hnodup, hdisjoint⟩

/-! ### When all connections are listed -/

/-- A list of the connections into a node: all of them, each once, those that feed declared sockets
in front and in the order of the sockets, the others in the order of the graph. -/
structure ListsIncoming (g : Graph) (n : Node) (cs : List Connection) : Prop where
  /-- No connection is listed twice. -/
  nodup : cs.Nodup
  /-- All connections into the node are listed. -/
  mem_iff : ∀ c, c ∈ cs ↔ c ∈ g.connections ∧ c.target.node = n.id
  /-- The order. -/
  order : ∃ rest, cs = g.declaredIncoming n ++ rest ∧ rest.Sublist g.connections

/-- The connections into a node differ in their ids, unless they feed declared sockets. -/
def SharesNoId (g : Graph) (n : Node) : Prop :=
  ∀ c ∈ g.connections, ∀ d ∈ g.connections, c.target.node = n.id → d.target.node = n.id →
    c.id = d.id → c = d ∨ c ∈ g.declaredIncoming n ∧ d ∈ g.declaredIncoming n

/-- **No connection is overlooked** exactly if no two share an id in vain. -/
theorem forall_not_overlooks_iff :
    (∀ c ∈ g.connections, c.target.node = n.id → ¬g.Overlooks n c) ↔ g.SharesNoId n := by
  constructor
  · intro h
    -- a connection that feeds no declared socket is the first of its id, and the only one
    have hunique : ∀ c ∈ g.connections, ∀ d ∈ g.connections, c.target.node = n.id →
        d.target.node = n.id → c.id = d.id → c ∉ g.declaredIncoming n → c = d := by
      intro c hc d hd hcnode hdnode hid hnot
      have hcfirst := h c hc hcnode
      simp only [Overlooks, hnot, not_false_eq_true, true_and, not_or, not_not] at hcfirst
      have hdnot : d ∉ g.declaredIncoming n := fun hmem =>
        hcfirst.1 (hid ▸ List.mem_map_of_mem hmem)
      have hdfirst := h d hd hdnode
      simp only [Overlooks, hdnot, not_false_eq_true, true_and, not_or, not_not] at hdfirst
      rw [hid, hdfirst.2] at hcfirst
      exact (Option.some.inj hcfirst.2).symm
    intro c hc d hd hcnode hdnode hid
    by_cases hcdeclared : c ∈ g.declaredIncoming n
    · by_cases hddeclared : d ∈ g.declaredIncoming n
      · exact Or.inr ⟨hcdeclared, hddeclared⟩
      · exact Or.inl (hunique d hd c hc hdnode hcnode hid.symm hddeclared).symm
    · exact Or.inl (hunique c hc d hd hcnode hdnode hid hcdeclared)
  · rintro h c hc hcnode ⟨hnot, hother | hother⟩
    · obtain ⟨d, hd, hid⟩ := List.mem_map.mp hother
      obtain ⟨s, -, -, hfound⟩ := mem_declaredIncoming.mp hd
      rcases h c hc d (mem_of_incomingAt? hfound) hcnode (target_of_incomingAt? hfound).1 hid.symm
        with rfl | ⟨hdeclared, -⟩
      · exact hnot hd
      · exact hnot hdeclared
    · cases hfirst : firstOfId? g.connections n.id c.id with
      | none =>
        have := List.find?_eq_none.mp hfirst c hc
        simp [hcnode] at this
      | some d =>
        obtain ⟨hd, hdnode, hid⟩ := spec_of_firstOfId? hfirst
        rcases h c hc d hd hcnode hdnode hid.symm with rfl | ⟨hdeclared, -⟩
        · exact hother hfirst
        · exact hnot hdeclared

/-- **What feeds a node are all connections into it, each once and in order**, exactly if they
differ in their ids, unless they feed declared sockets, and if no connected socket is declared
twice.  A connection that feeds an input is missing exactly if it is overlooked. -/
theorem listsIncoming_iff (g : Graph) (n : Node) :
    (g.ListsIncoming n (g.incoming n) ↔ g.SharesNoId n ∧ g.DeclaresOnce n) ∧
      ∀ socket c, g.incomingAt? n.id socket = some c →
        (c ∉ g.incoming n ↔ g.Overlooks n c) := by
  constructor
  · rw [← forall_not_overlooks_iff, ← nodup_incoming_iff]
    constructor
    · intro h
      refine ⟨fun c hc hnode => ?_, h.nodup⟩
      exact (mem_incoming_iff.mp ((h.mem_iff c).mpr ⟨hc, hnode⟩)).2.2
    · rintro ⟨hall, hnodup⟩
      obtain ⟨rest, heq, hsub, -⟩ := g.incoming_eq_append n
      refine ⟨hnodup, fun c => ?_, rest, heq, hsub⟩
      rw [mem_incoming_iff]
      constructor
      · rintro ⟨hc, hnode, -⟩
        exact ⟨hc, hnode⟩
      · rintro ⟨hc, hnode⟩
        exact ⟨hc, hnode, hall c hc hnode⟩
  · intro socket c hfound
    rw [mem_incoming_iff, not_and, not_and, not_not]
    constructor
    · intro h
      exact h (mem_of_incomingAt? hfound) (target_of_incomingAt? hfound).1
    · intro h _ _
      exact h

/-! ### Connections of one id -/

/-- A sum whose document lists no inputs, with two connections of one id. -/
def twinGraph : Graph where
  version := "1"
  metadata := { name := "Twin" }
  nodes := [{ id := "sum", type := "Add" }, { id := "a", type := "Float" },
    { id := "b", type := "Float" }]
  connections := [⟨"c", ⟨"a", "Out"⟩, ⟨"sum", "A"⟩⟩, ⟨"c", ⟨"b", "Out"⟩, ⟨"sum", "B"⟩⟩]

/-- **A connection may be overlooked**, and the code of its node then reads the variable of a node
that no walk has come to. -/
theorem exists_connection_overlooked :
    twinGraph.checked = .ok twinGraph ∧ ∃ n c code, twinGraph.findNode "sum" = .ok n ∧
      twinGraph.incomingAt? n.id "B" = some c ∧ c.source.node = "b" ∧ c ∉ twinGraph.incoming n ∧
      ¬twinGraph.ListsIncoming n (twinGraph.incoming n) ∧
      twinGraph.evaluationOrder "sum" = .ok ["a", "sum"] ∧
      Operation.code ⟨twinGraph, [], .final, .pixel⟩ ⟨n, .add⟩ = .ok code ∧
      Code.text code = "float _Add_sum_Out;\n" ++
        "Unity_Add_float(_Float_a_Out, _Float_b_Out, _Add_sum_Out);" := by
  have hcheck : (Operation.code ⟨twinGraph, [], .final, .pixel⟩
      ⟨twinGraph.nodes[0], .add⟩).toOption.any (fun code => Code.text code ==
        "float _Add_sum_Out;\n" ++ "Unity_Add_float(_Float_a_Out, _Float_b_Out, _Add_sum_Out);") =
      true := by decide +kernel
  obtain ⟨code, hcode, htext⟩ := Outcome.exists_of_check hcheck
  have hnot : twinGraph.connections[1] ∉ twinGraph.incoming twinGraph.nodes[0] := by
    decide +kernel
  refine ⟨rfl, twinGraph.nodes[0], twinGraph.connections[1], code, rfl, rfl, rfl, hnot, ?_,
    by decide +kernel, hcode, beq_iff_eq.mp htext⟩
  intro h
  exact hnot ((h.mem_iff twinGraph.connections[1]).mpr (by decide))

/-- A connection into a socket that is declared twice is listed twice. -/
example :
    let n : Node := { id := "sum", type := "Add", inputs := [{ id := "A" }, { id := "A" }] }
    (twinGraph.incoming n).map (fun c => c.target.socket) = ["A", "A"] := by decide +kernel

end Graph
end MaterialShader
