import MaterialShader.Graph.Incoming

/-!
# Walks

A walk collects an output node and everything that feeds it, depth first.  A node
comes after the nodes that feed it, so the output comes last, and each node comes
once.  A walk may be limited to some input sockets of the output node, and to the
connections that a predicate accepts.

## Main definitions

* `Walk` — what a walk starts from and which connections it follows.
* `Walk.edges` — the connections it follows from a node.
* `Walk.collect` — the ids of the nodes in order.
* `Graph.evaluationOrder` — the walk without limits.
-/

namespace MaterialShader

/-- What a walk starts from and what it follows. -/
structure Walk where
  graph : Graph
  /-- The id of the output node. -/
  output : String
  /-- The sockets of the output node that are followed; none means every socket. -/
  slots : Option (List String) := none
  /-- The connections that are followed into a node. -/
  follows : Node → Connection → Bool := fun _ _ => true

namespace Walk

/-- The walk follows a connection as far as the sockets of the output node are
concerned. -/
def admitsSlot (w : Walk) (n : Node) (c : Connection) : Bool :=
  match w.slots with
  | none => true
  | some slots => n.id != w.output || slots.contains c.target.socket

/-- The connections that the walk follows from a node. -/
def edges (w : Walk) (n : Node) : List Connection :=
  (w.graph.incoming n).filter fun c => w.admitsSlot n c && w.follows n c

/-- The nodes collected after a visit to a node, where `opened` are the nodes whose
inputs are being followed.  The open nodes are different nodes of the graph, so
`fuel` does not run out before one of them is met again if it starts above the
number of nodes. -/
def visit (w : Walk) : Nat → List String → List String → String →
    Except GenerationError (List String)
  | 0, _, _, id => .error (.cycle id)
  | fuel + 1, opened, done, id =>
      -- a node that feeds several others is collected with the first of them
      if id ∈ done then .ok done
      else if id ∈ opened then .error (.cycle id)
      else do
        let n ← w.graph.findNode id
        let done ← (w.edges n).foldlM
          (fun done c => visit w fuel (id :: opened) done c.source.node) done
        return done ++ [id]

/-- The ids of the output node and of everything that feeds it. -/
def collect (w : Walk) : Except GenerationError (List String) :=
  w.visit (w.graph.nodes.length + 1) [] [] w.output

end Walk

/-- The ids of a node and of everything that feeds it. -/
def Graph.evaluationOrder (g : Graph) (output : String) : Except GenerationError (List String) :=
  Walk.collect ⟨g, output, none, fun _ _ => true⟩

end MaterialShader
