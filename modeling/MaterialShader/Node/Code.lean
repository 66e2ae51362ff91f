import MaterialShader.Shading.Statement
import MaterialShader.Node.Branch
import MaterialShader.Node.Constant
import MaterialShader.Node.Input
import MaterialShader.Node.Output

/-!
# The code of nodes

Each node computes its outputs into variables of a description function.  The master
node has no code.

## Main definitions

* `Evaluation` — what the code of nodes is made for.
* `Operation.statements` — the statements of a node.
* `Operation.helper?` — the helper function that a node calls.
-/

namespace MaterialShader

open Shading (ValueType Expr Statement Helper Operator Lane Channel Arm)

/-- What the code of nodes is made for. -/
structure Evaluation where
  graph : Graph
  /-- The keywords of the graph. -/
  keywords : Keywords
  mode : Mode
  stage : Stage

/-! ### Inputs -/

/-- The texture coordinate of a channel, as an expression. -/
def meshUv (channel : Nat) : Expr := .lanes (.input (Requirements.uvInput channel)) [.x, .y]

/-- The coordinate of the pixel on the screen. -/
def screenUv : Expr :=
  let position : Expr := .input "ScreenPosition"
  .group (.quotient (.lanes position [.x, .y]) (.lanes position [.w]))

namespace Operation

/-! ### Constants and geometry -/

/-- The value of a constant as an expression. -/
def constantExpr : PropertyValue → Expr
  | .float v => .constant [v]
  | .color v => .constant v
  | .vector v => .constant v
  | .texture _ => .constant []

/-- The type of a constant. -/
def constantType : PropertyValue → ValueType
  | .float _ => .float
  | _ => .float4

/-- The statement of a constant, which reads the property behind it where there is
one. -/
def constantStatements (o : Operation) (mode : Mode) (value : PropertyValue) :
    List Statement :=
  let source :=
    match o.backingProperty? mode with
    | some p => .property p.referenceName
    | none => constantExpr value
  [.define (constantType value) (o.node.variable "Out") source]

/-- The outputs of the time, each with the component it is read from. -/
def timeOutputs : List (String × Lane) := [("Time", .x), ("SineTime", .y), ("CosineTime", .z)]

/-- The statements of a geometry node. -/
def geometryStatements (o : Operation) : List Statement :=
  let n := o.node
  let output (type : ValueType) (member : String) : List Statement :=
    [.define type (n.variable "Out") (.input member)]
  match o.kind with
  | .time =>
      timeOutputs.map fun p =>
        .define .float (n.variable p.1) (.lanes (.input "TimeParameters") [p.2])
  | .uv => output .float4 (Requirements.uvInput n.uvChannel)
  | .position => output .float3 (Requirements.positionInput n.space)
  | .normal => output .float3 (Requirements.normalInput n.space)
  | .vertexColor => output .float4 "VertexColor"
  | _ => []

/-! ### Sums and products -/

/-- The operator of a sum or a product. -/
def operator? (o : Operation) : Option Operator :=
  match o.kind with
  | .add => some .add
  | .multiply => some .multiply
  | _ => none

/-- The statements of a sum or a product.  An operand that is not connected changes
nothing. -/
def operatorStatements (e : Evaluation) (n : Node) (op : Operator) (type : ValueType) :
    Except GenerationError (List Statement) := do
  let identity : Expr := .constant (List.replicate type.width op.identity)
  let left ← e.graph.inputValue n "A" type identity
  let right ← e.graph.inputValue n "B" type identity
  return [.declare type (n.variable "Out"),
    .call ⟨op, type⟩ left.expr right.expr (n.variable "Out")]

/-! ### Textures and the scene -/

/-- The socket of a channel of a texture. -/
def channelSocket : Channel → String
  | .red => "R"
  | .green => "G"
  | .blue => "B"
  | .alpha => "A"

/-- The statements of a texture: the colour, then its channels. -/
def textureStatements (e : Evaluation) (n : Node) : Except GenerationError (List Statement) := do
  let uv ← e.graph.inputValue n "UV" .float2 (meshUv n.uvChannel)
  let color := n.variable "RGBA"
  return .define .float4 color (.sample n.textureName uv.expr (e.stage == .vertex)) ::
    Channel.all.map fun c =>
      .define .float (n.variable (channelSocket c)) (.channel (.variable color) c)

/-- The statement that reads a scene buffer. -/
def sceneStatements (e : Evaluation) (n : Node) (buffer : Shading.SceneBuffer) (type : ValueType) :
    Except GenerationError (List Statement) := do
  let uv ← e.graph.inputValue n "UV" .float2 screenUv
  return [.define type (n.variable "Out") (.scene buffer uv.expr)]

/-! ### Keywords -/

/-- The statement that chooses one of the inputs.  An input that is not connected is
zero. -/
def branchStatements (e : Evaluation) (n : Node) (k : Keyword) (type : ValueType) :
    Except GenerationError (List Statement) := do
  let zero : Expr := .constant (List.replicate type.width (.ofNat 0))
  let arms ← k.branches.mapM fun b => do
    return Arm.mk b.1 (← e.graph.inputValue n b.2 type zero).expr
  return [.select type (n.variable "Out") arms]

/-! ### All nodes -/

/-- The statements of a node. -/
def statements (e : Evaluation) (o : Operation) : Except GenerationError (List Statement) :=
  match o.kind with
  | .master => .ok []
  | .color | .float | .vector =>
      .ok ((o.constant?.map (o.constantStatements e.mode)).getD [])
  | .time | .uv | .position | .normal | .vertexColor => .ok o.geometryStatements
  | .add => do operatorStatements e o.node .add (← e.graph.outputType o "Out")
  | .multiply => do operatorStatements e o.node .multiply (← e.graph.outputType o "Out")
  | .sampleTexture => textureStatements e o.node
  | .sceneDepth => sceneStatements e o.node .depth .float
  | .sceneColor => sceneStatements e o.node .color .float3
  | .keyword => do
      let k ← o.node.keyword e.keywords
      branchStatements e o.node k (← e.graph.outputType o "Out")

/-- The code of a node. -/
def code (e : Evaluation) (o : Operation) : Except GenerationError (List Code) := do
  return (← o.statements e).flatMap Statement.code

/-- The helper function that a node calls. -/
def helper? (g : Graph) (o : Operation) : Except GenerationError (Option Helper) :=
  match o.operator? with
  | none => .ok none
  | some op => do return some ⟨op, ← g.outputType o "Out"⟩

end Operation
end MaterialShader
