import MaterialShader.Graph.Basic

/-!
# Incoming connections

What feeds a node: at each input socket the first connection into it, in the order in
which the node declares its sockets, and after them the connections whose ids have
not come up yet, in the order of the graph.

## Main definitions

* `Graph.incomingAt?` — the connection that feeds a socket.
* `Graph.incoming` — the connections that feed a node.
-/

namespace MaterialShader
namespace Graph

/-- The connection goes into a socket of a node. -/
def entersSocket (node socket : String) (c : Connection) : Bool :=
  c.target.node == node && c.target.socket == socket

/-- The connection that feeds a socket of a node; of several the first. -/
def incomingAt? (g : Graph) (node socket : String) : Option Connection :=
  g.connections.find? (entersSocket node socket)

/-- The connections that feed the declared sockets of a node. -/
def declaredIncoming (g : Graph) (n : Node) : List Connection :=
  n.inputs.filterMap fun p => g.incomingAt? n.id p.id

/-- Connections into a node are added behind those that are there, unless one with
the same id is. -/
def addIncoming (node : String) (found : List Connection) (c : Connection) : List Connection :=
  if c.target.node = node ∧ c.id ∉ found.map (·.id) then found ++ [c] else found

/-- The connections that feed a node. -/
def incoming (g : Graph) (n : Node) : List Connection :=
  g.connections.foldl (addIncoming n.id) (g.declaredIncoming n)

theorem target_of_incomingAt? {g : Graph} {node socket : String} {c : Connection}
    (h : g.incomingAt? node socket = some c) : c.target.node = node ∧ c.target.socket = socket := by
  simpa [entersSocket] using List.find?_some h

theorem mem_of_incomingAt? {g : Graph} {node socket : String} {c : Connection}
    (h : g.incomingAt? node socket = some c) : c ∈ g.connections := List.mem_of_find?_eq_some h

end Graph
end MaterialShader
