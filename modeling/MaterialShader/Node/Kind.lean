import MaterialShader.Graph.Basic
import MaterialShader.Text.Identifier

/-!
# Kinds of nodes

## Main definitions

* `NodeKind`, `NodeKind.ofTypeName?` — what nodes compute, and the names for it.
* `Operation` — a node with its kind.
* `Graph.operation` — the operation of the node with an id.
* `Node.variable` — the variable that holds an output of a node.
-/

namespace MaterialShader

/-- What a node computes. -/
inductive NodeKind where
  /-- The output of the material. -/
  | master : NodeKind
  /-- A constant colour. -/
  | color : NodeKind
  /-- A constant number. -/
  | float : NodeKind
  /-- A constant vector. -/
  | vector : NodeKind
  /-- A sum. -/
  | add : NodeKind
  /-- A product. -/
  | multiply : NodeKind
  /-- A texture at a coordinate. -/
  | sampleTexture : NodeKind
  | time : NodeKind
  /-- A texture coordinate. -/
  | uv : NodeKind
  | position : NodeKind
  | normal : NodeKind
  | vertexColor : NodeKind
  | sceneDepth : NodeKind
  | sceneColor : NodeKind
  /-- One of its inputs, chosen by a keyword. -/
  | keyword : NodeKind
  deriving DecidableEq, Repr, Inhabited

/-- The kind that a type name stands for. -/
def NodeKind.ofTypeName? (name : String) : Option NodeKind :=
  [("Master", .master), ("Color", .color), ("Float", .float), ("Vector", .vector),
    ("Vector4", .vector), ("Add", .add), ("Multiply", .multiply),
    ("SampleTexture2D", .sampleTexture), ("Time", .time), ("UV", .uv),
    ("Position", .position), ("Normal", .normal), ("VertexColor", .vertexColor),
    ("SceneDepth", .sceneDepth), ("SceneColor", .sceneColor), ("Keyword", .keyword)].lookup name

/-- A node with what it computes. -/
structure Operation where
  node : Node
  /-- What it computes. -/
  kind : NodeKind
  deriving Repr, Inhabited

namespace Operation

/-- The operation of a node; a type name nothing is known about is an error. -/
def ofNode (n : Node) : Except GenerationError Operation :=
  match NodeKind.ofTypeName? n.type with
  | some kind => .ok ⟨n, kind⟩
  | none => .error (.unknownNodeType n.id n.type)

/-- The operation is the output of the material. -/
def isMaster (o : Operation) : Bool := o.kind == .master

/-- The output that stands for the node: its first declared one, or else the main
output of its kind. -/
def primaryOutput (o : Operation) : String :=
  match o.node.outputs with
  | p :: _ => p.id
  | [] =>
      match o.kind with
      | .sampleTexture => "RGBA"
      | .time => "Time"
      | _ => "Out"

theorem node_of_ofNode {n : Node} {o : Operation} (h : ofNode n = .ok o) : o.node = n := by
  unfold ofNode at h
  split at h
  · injection h with h; rw [← h]
  · simp at h

end Operation

/-- The operation of the node with an id. -/
def Graph.operation (g : Graph) (id : String) : Except GenerationError Operation := do
  Operation.ofNode (← g.findNode id)

/-- The variable that holds an output of a node. -/
def Node.variable (n : Node) (socket : String) : String :=
  "_" ++ Text.identifier n.type ++ "_" ++ Text.identifier n.id ++ "_" ++ Text.identifier socket

end MaterialShader
