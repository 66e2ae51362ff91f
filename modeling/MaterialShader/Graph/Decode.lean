import MaterialShader.FileStore
import MaterialShader.Graph.Basic
import MaterialShader.Json.Reader
import MaterialShader.Keyword.Decode

/-!
# Graphs in documents

A graph is refused when its document has not the right form, and when one of its
enum keywords has no entries.

## Main definitions

* `Params.ofJson?` — the parameters of a node.
* `Graph.ofJson?` — the graph a document holds, keywords unchecked.
* `Graph.ofDocument`, `Graph.ofText`, `Graph.load` — reading a graph.
-/

namespace MaterialShader

open Json (Record)

/-- The parameters with a value set; an earlier value of the key is replaced where it
stands. -/
def Params.set (p : Params) (key : String) (value : Json) : Params :=
  if (p.map (·.1)).contains key then
    p.map fun m => if m.1 == key then (key, value) else m
  else p ++ [(key, value)]

/-- The parameters that an object holds, of a repeated key the last value.  Values
are kept as they are, so they have to be readable and nested no deeper than
documents may be; `enclosing` arrays and objects are around them. -/
def Params.ofJson? (enclosing : Nat) : Json → Option Params
  | .record members => do
      let named ← Record.readKeys? members
      if named.all fun m => m.2.isReadable && enclosing + m.2.depth ≤ Json.maxDepth then
        some (named.foldl (fun p m => p.set m.1 m.2) [])
      else none
  | _ => none

/-- How many arrays and objects are around the parameters of a node: the graph, the
list of nodes, the node, and the parameters themselves. -/
def Params.enclosingInGraph : Nat := 4

/-- A socket. -/
def Socket.ofJson? (j : Json) : Option Socket := do
  let r ← Record.read? ["id", "name", "type"] j
  return {
    id := ← r.required? "id" Json.text?
    name := ← r.optionalAnywhere? "name" Json.text?
    type := ← r.optionalAnywhere? "type" Json.text? }

/-- A node. -/
def Node.ofJson? (j : Json) : Option Node := do
  let r ← Record.read? ["id", "type", "params", "inputs", "outputs"] j
  return {
    id := ← r.required? "id" Json.text?
    type := ← r.required? "type" Json.text?
    params := ← r.withDefault? "params" (Params.ofJson? Params.enclosingInGraph) []
    inputs := ← r.withDefault? "inputs" (Json.listOf? Socket.ofJson?) []
    outputs := ← r.withDefault? "outputs" (Json.listOf? Socket.ofJson?) [] }

/-- One end of a connection. -/
def Endpoint.ofJson? (j : Json) : Option Endpoint := do
  let r ← Record.read? ["nodeId", "portId"] j
  return {
    node := ← r.required? "nodeId" Json.text?
    socket := ← r.required? "portId" Json.text? }

/-- A connection. -/
def Connection.ofJson? (j : Json) : Option Connection := do
  let r ← Record.read? ["id", "from", "to"] j
  return {
    id := ← r.required? "id" Json.text?
    source := ← r.required? "from" Endpoint.ofJson?
    target := ← r.required? "to" Endpoint.ofJson? }

/-- What a graph says about itself. -/
def Metadata.ofJson? (j : Json) : Option Metadata := do
  let r ← Record.read? ["name", "path", "created", "modified"] j
  return {
    name := ← r.required? "name" Json.text?
    path := ← r.optionalAnywhere? "path" Json.text?
    created := ← r.optional? "created" Json.text?
    modified := ← r.optional? "modified" Json.text? }

namespace Graph

/-- The graph a document holds. -/
def ofJson? (j : Json) : Option Graph := do
  let r ← Record.read?
    ["version", "metadata", "nodes", "connections", "keywords", "targets"] j
  return {
    version := ← r.required? "version" Json.text?
    metadata := ← r.required? "metadata" Metadata.ofJson?
    nodes := ← r.required? "nodes" (Json.listOf? Node.ofJson?)
    connections := ← r.required? "connections" (Json.listOf? Connection.ofJson?)
    keywords := ← r.withDefault? "keywords" Keywords.ofJson? []
    targets := ← r.withDefault? "targets" (Json.listOf? Json.text?) [] }

/-- The graph unless one of its keywords has nothing to choose from. -/
def checked (g : Graph) : Except LoadError Graph :=
  match g.keywords.firstEmpty? with
  | some k => .error (.rejected (.emptyKeyword k.referenceName))
  | none => .ok g

/-- The graph a document holds, or why it is refused; a text that holds no document
is refused like a document of the wrong form. -/
def ofDocument (document : Option Json) : Except LoadError Graph :=
  match document.bind ofJson? with
  | none => .error (.malformed .graph)
  | some g => g.checked

/-- The graph in the text of a document. -/
def ofText (text : String) : Except LoadError Graph := ofDocument (Json.read? text)

/-- The graph in a file. -/
def load (store : FileStore) (path : Path) : Except LoadError Graph :=
  match store.readText? path with
  | none => .error (.unreadable .graph path)
  | some text => (ofText text).mapError (LoadError.inFile .graph path)

/-- A graph that was not refused has a value for each of its keywords. -/
theorem hasValues_of_checked {g h : Graph} (hok : g.checked = .ok h) :
    h = g ∧ ∀ k ∈ h.keywords, k.hasValues = true := by
  unfold checked at hok
  split at hok
  · simp at hok
  · next hnone =>
    injection hok with hgh
    subst hgh
    refine ⟨rfl, fun k hk => ?_⟩
    simpa using List.find?_eq_none.mp hnone k hk

end Graph
end MaterialShader
