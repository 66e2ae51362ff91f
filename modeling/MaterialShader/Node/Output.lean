import MaterialShader.Graph.Incoming
import MaterialShader.Shading.Expr
import MaterialShader.Node.Kind

/-!
# Outputs of nodes

The type of what a node puts out.  Most kinds have a fixed type; sums, products and
keyword nodes are as wide as the widest value connected to them.

## Main definitions

* `Operation.fixedType?` — the type of a kind that has a fixed one.
* `Graph.outputType` — the type of an output.
* `Graph.connectedOutput` — the variable connected to an input, with its type.
* `Graph.inputValue` — the value of an input, converted to a type.
-/

namespace MaterialShader

open Shading (ValueType Typed Expr)

namespace Operation

/-- The type of an output of a texture: a single channel or the colour. -/
def textureOutputType (socket : String) : ValueType :=
  if socket ∈ ["R", "G", "B", "A"] then .float else .float4

/-- The type of an output whose type does not depend on what is connected. -/
def fixedType? (o : Operation) (socket : String) : Option ValueType :=
  match o.kind with
  | .master | .float | .time | .sceneDepth => some .float
  | .color | .vector | .vertexColor | .uv => some .float4
  | .position | .normal | .sceneColor => some .float3
  | .sampleTexture => some (textureOutputType socket)
  | .add | .multiply | .keyword => none

/-- The inputs whose widths decide the type of the output. -/
def wideningSockets (o : Operation) : List String :=
  match o.kind with
  | .add | .multiply => ["A", "B"]
  | .keyword => o.node.inputs.map (·.id)
  | _ => []

end Operation

namespace Graph

/-- The operation connected to an input, with the output it is connected by. -/
def connected (g : Graph) (n : Node) (socket : String) :
    Except GenerationError (Option (Operation × String)) :=
  match g.incomingAt? n.id socket with
  | none => .ok none
  | some c => do return some (← g.operation c.source.node, c.source.socket)

/-- The type of an output, followed over at most `fuel` nodes. -/
def outputTypeWithin (g : Graph) : Nat → Operation → String → Except GenerationError ValueType
  | 0, o, _ => .error (.cycle o.node.id)
  | fuel + 1, o, socket =>
      match o.fixedType? socket with
      | some t => .ok t
      | none =>
          -- the widest of what is connected, and a single float if nothing is
          o.wideningSockets.foldlM
            (fun t input => do
              match ← g.connected o.node input with
              | none => return t
              | some (source, output) =>
                  return t.wider (← outputTypeWithin g fuel source output))
            .float

/-- The type of an output.  Following what is connected passes each node at most
once, so the number of nodes bounds it. -/
def outputType (g : Graph) (o : Operation) (socket : String) : Except GenerationError ValueType :=
  g.outputTypeWithin (g.nodes.length + 1) o socket

/-- The variable connected to an input, with its type. -/
def connectedOutput (g : Graph) (n : Node) (socket : String) :
    Except GenerationError (Option Typed) := do
  match ← g.connected n socket with
  | none => return none
  | some (source, output) =>
      return some ⟨← g.outputType source output, .variable (source.node.variable output)⟩

/-- The value of an input, converted to a type; an input that nothing is connected to
has a default. -/
def inputValue (g : Graph) (n : Node) (socket : String) (type : ValueType) (default : Expr) :
    Except GenerationError Typed := do
  match ← g.connectedOutput n socket with
  | some value => return value.coerce type
  | none => return ⟨type, default⟩

end Graph
end MaterialShader
