import MaterialShader.Error
import MaterialShader.Json.Document
import MaterialShader.Keyword.Permutation
import MaterialShader.Number.Single

/-!
# Material graphs

A material graph holds nodes with input and output sockets, and connections from an
output of one node to an input of another.  Ids are not required to be unique: a
node is found under its id as the first one with it.

## Main definitions

* `Params` — the parameters of a node, with typed access.
* `Graph`, `Node`, `Socket`, `Connection`, `Endpoint` — the parts of a graph.
* `Graph.node?`, `Graph.findNode` — the node with an id.
* `Graph.shaderPath` — the menu path of the generated shader.
-/

namespace MaterialShader

/-! ### Parameters -/

/-- The parameters of a node: a value for each key, and no key twice. -/
abbrev Params := List (String × Json)

namespace Params

/-- The value of a key. -/
def get? (p : Params) (key : String) : Option Json := p.lookup key

/-- The value of a key that is a text. -/
def text? (p : Params) (key : String) : Option String := (p.get? key).bind Json.text?

/-- The value of a key that is a truth value. -/
def flag? (p : Params) (key : String) : Option Bool := (p.get? key).bind Json.bool?

/-- The value of a key that is a number, as a shader constant. -/
def single? (p : Params) (key : String) : Option Single :=
  ((p.get? key).bind Json.number?).map Single.ofNumber

/-- The value of a key that is a whole number below `2 ^ 32`. -/
def natural? (p : Params) (key : String) : Option Nat :=
  ((p.get? key).bind Json.natural?).filter (· < Nat.pow 2 32)

/-- A vector whose components are replaced by the numbers among the items, each at
its place. -/
def overlay : List Single → List Json → List Single
  | s :: rest, j :: items =>
      ((j.number?.map Single.ofNumber).getD s) :: overlay rest items
  | rest, [] => rest
  | [], _ => []

@[simp] theorem length_overlay (fallback : List Single) (items : List Json) :
    (overlay fallback items).length = fallback.length := by
  induction fallback generalizing items with
  | nil => cases items <;> rfl
  | cons s rest ih =>
    cases items with
    | nil => rfl
    | cons j items => simp [overlay, ih]

/-- The value of a key that is an array, as a vector as long as `fallback`, which
gives the components that the array has no number for. -/
def vector (p : Params) (key : String) (fallback : List Single) : List Single :=
  match (p.get? key).bind Json.items? with
  | some items => overlay fallback items
  | none => fallback

end Params

/-! ### Graphs -/

/-- A socket of a node. -/
structure Socket where
  /-- The id, by which connections name it. -/
  id : String
  /-- The name shown. -/
  name : Option String := none
  /-- The type shown. -/
  type : Option String := none
  deriving DecidableEq, Repr, Inhabited

/-- A node. -/
structure Node where
  /-- The id, by which connections name it. -/
  id : String
  /-- The name of what it computes. -/
  type : String
  /-- Its parameters. -/
  params : Params := []
  /-- Its input sockets, whose order the walk follows. -/
  inputs : List Socket := []
  outputs : List Socket := []
  deriving Repr, Inhabited

/-- One end of a connection. -/
structure Endpoint where
  /-- The id of the node. -/
  node : String
  /-- The id of the socket. -/
  socket : String
  deriving DecidableEq, Repr, Inhabited

/-- A connection. -/
structure Connection where
  id : String
  /-- Where the value comes from. -/
  source : Endpoint
  /-- Where it goes. -/
  target : Endpoint
  deriving DecidableEq, Repr, Inhabited

/-- What a graph says about itself. -/
structure Metadata where
  /-- The name of the material. -/
  name : String
  /-- The menu the shader is listed under. -/
  path : Option String := none
  /-- When it was made. -/
  created : Option String := none
  /-- When it was changed. -/
  modified : Option String := none
  deriving DecidableEq, Repr, Inhabited

/-- A material graph. -/
structure Graph where
  /-- The version of the format. -/
  version : String
  /-- What the graph says about itself. -/
  metadata : Metadata
  nodes : List Node
  connections : List Connection
  /-- The keywords, to which keyword nodes refer. -/
  keywords : Keywords := []
  /-- The names of the targets the graph is made for; none means every target. -/
  targets : List String := []
  deriving Repr, Inhabited

namespace Graph

/-- The node with an id. -/
def node? (g : Graph) (id : String) : Option Node := g.nodes.find? fun n => n.id == id

/-- The node with an id, or the error that there is none. -/
def findNode (g : Graph) (id : String) : Except GenerationError Node :=
  match g.node? id with
  | some n => .ok n
  | none => .error (.missingNode id)

theorem id_of_node? {g : Graph} {id : String} {n : Node} (h : g.node? id = some n) : n.id = id := by
  simpa using List.find?_some h

theorem findNode_eq_ok_iff {g : Graph} {id : String} {n : Node} :
    g.findNode id = .ok n ↔ g.node? id = some n := by
  unfold findNode
  cases g.node? id <;> simp

theorem id_of_findNode {g : Graph} {id : String} {n : Node} (h : g.findNode id = .ok n) :
    n.id = id := id_of_node? (findNode_eq_ok_iff.mp h)

/-- A text without the slashes it ends with. -/
def dropFinalSlashes (s : String) : String :=
  String.ofList ((s.toList.reverse.dropWhile (· == '/')).reverse)

/-- The menu path of the shader: the name of the material below its menu, or below
`Shader Graphs` where it names none. -/
def shaderPath (g : Graph) : String :=
  match g.metadata.path with
  | some menu =>
      if menu.isEmpty then "Shader Graphs/" ++ g.metadata.name
      else dropFinalSlashes menu ++ "/" ++ g.metadata.name
  | none => "Shader Graphs/" ++ g.metadata.name

end Graph
end MaterialShader
