import MaterialShader.Proofs.NodeText

/-!
# The statements of a node, kind by kind

What the statements of a node can be is said here once.  There are seven shapes, and each comes
with what is known of its parts: the value of an input is the variable connected to it or a
default, and the type of a sum, a product or a choice is the type of the output.

## Main definitions

* `Operation.geometryInput?`, `Operation.sceneBuffer?` — what two families of kinds read.
* `Operation.Computes` — the shapes that the statements of a node have.

## Main results

* `Graph.inputValue_spec` — the value of an input.
* `Operation.computes_of_statements` — the statements of a node have one of the shapes.
-/

namespace MaterialShader

open Shading (ValueType Typed Expr Statement Operator SceneBuffer Arm)

/-! ### The value of an input -/

namespace Graph

variable {g : Graph} {n : Node} {socket : String} {type : ValueType} {default : Expr} {v : Typed}

/-- The variable that a connection brings, with its type. -/
theorem connectedOutput_spec {value? : Option Typed} (h : g.connectedOutput n socket = .ok value?) :
    (g.incomingAt? n.id socket = none ∧ value? = none) ∨
      ∃ c source t, g.incomingAt? n.id socket = some c ∧
        g.operation c.source.node = .ok source ∧ g.outputType source c.source.socket = .ok t ∧
        value? = some ⟨t, .variable (source.node.variable c.source.socket)⟩ := by
  obtain ⟨source?, hsource, h⟩ := Outcome.bind_eq_ok_iff.mp h
  unfold connected at hsource
  cases hc : g.incomingAt? n.id socket with
  | none =>
    rw [hc] at hsource
    rw [← Except.ok.inj hsource] at h
    exact Or.inl ⟨rfl, (Outcome.pure_eq_ok_iff.mp h).symm⟩
  | some c =>
    rw [hc] at hsource
    obtain ⟨source, hoperation, hsource⟩ := Outcome.bind_eq_ok_iff.mp hsource
    rw [← Outcome.pure_eq_ok_iff.mp hsource] at h
    obtain ⟨t, ht, h⟩ := Outcome.bind_eq_ok_iff.mp h
    exact Or.inr ⟨c, source, t, rfl, hoperation, ht, (Outcome.pure_eq_ok_iff.mp h).symm⟩

/-- **The value of an input** is its default where nothing is connected, and otherwise the
variable of the output that is connected, converted. -/
theorem inputValue_spec (h : g.inputValue n socket type default = .ok v) :
    (g.incomingAt? n.id socket = none ∧ v = ⟨type, default⟩) ∨
      ∃ c source t, g.incomingAt? n.id socket = some c ∧
        g.operation c.source.node = .ok source ∧ g.outputType source c.source.socket = .ok t ∧
        v = Typed.coerce ⟨t, .variable (source.node.variable c.source.socket)⟩ type := by
  obtain ⟨value?, hvalue, h⟩ := Outcome.bind_eq_ok_iff.mp h
  obtain ⟨hnone, rfl⟩ | ⟨c, source, t, hc, hsource, ht, rfl⟩ := connectedOutput_spec hvalue
  · exact Or.inl ⟨hnone, (Outcome.pure_eq_ok_iff.mp h).symm⟩
  · exact Or.inr ⟨c, source, t, hc, hsource, ht, (Outcome.pure_eq_ok_iff.mp h).symm⟩

theorem type_inputValue (h : g.inputValue n socket type default = .ok v) : v.type = type := by
  obtain ⟨-, rfl⟩ | ⟨c, source, t, -, -, -, rfl⟩ := inputValue_spec h
  · rfl
  · exact Typed.type_coerce _ _

end Graph

/-! ### The shapes -/

namespace Operation

/-- The input that a geometry node passes on, with its type; the time has several outputs and
is no such node. -/
def geometryInput? (o : Operation) : Option (ValueType × String) :=
  match o.kind with
  | .uv => some (.float4, Requirements.uvInput o.node.uvChannel)
  | .position => some (.float3, Requirements.positionInput o.node.space)
  | .normal => some (.float3, Requirements.normalInput o.node.space)
  | .vertexColor => some (.float4, "VertexColor")
  | _ => none

/-- The scene buffer that a node reads, with the type of what it reads. -/
def sceneBuffer? (o : Operation) : Option (SceneBuffer × ValueType) :=
  match o.kind with
  | .sceneDepth => some (.depth, .float)
  | .sceneColor => some (.color, .float3)
  | _ => none

/-- An operand that changes nothing. -/
def identityExpr (op : Operator) (type : ValueType) : Expr :=
  .constant (List.replicate type.width op.identity)

/-- The statements that read a texture and then its channels. -/
def sampleStatements (n : Node) (uv : Expr) (explicitLevel : Bool) : List Statement :=
  .define .float4 (n.variable "RGBA") (.sample n.textureName uv explicitLevel) ::
    Shading.Channel.all.map fun c =>
      .define .float (n.variable (channelSocket c)) (.channel (.variable (n.variable "RGBA")) c)

variable {e : Evaluation} {o : Operation} {statements : List Statement}

/-- **What the statements of a node can be.** -/
inductive Computes (e : Evaluation) (o : Operation) : List Statement → Prop where
  /-- The master node has none. -/
  | master (hkind : o.kind = .master) : Computes e o []
  /-- A constant is one definition. -/
  | constant {value : PropertyValue} (hvalue : o.constant? = some value) :
      Computes e o (o.constantStatements e.mode value)
  /-- The time has a definition for each of its outputs. -/
  | time (hkind : o.kind = .time) :
      Computes e o (timeOutputs.map fun p =>
        .define .float (o.node.variable p.1) (.lanes (.input "TimeParameters") [p.2]))
  /-- Any other geometry node passes on an input. -/
  | geometry {type : ValueType} {member : String} (hinput : o.geometryInput? = some (type, member)) :
      Computes e o [.define type (o.node.variable "Out") (.input member)]
  /-- A sum or a product calls a helper function. -/
  | operator {op : Operator} {type : ValueType} {left right : Typed}
      (hop : o.operator? = some op) (htype : e.graph.outputType o "Out" = .ok type)
      (hleft : e.graph.inputValue o.node "A" type (identityExpr op type) = .ok left)
      (hright : e.graph.inputValue o.node "B" type (identityExpr op type) = .ok right) :
      Computes e o [.declare type (o.node.variable "Out"),
        .call ⟨op, type⟩ left.expr right.expr (o.node.variable "Out")]
  /-- A texture is read once and taken apart. -/
  | texture {uv : Typed} (hkind : o.kind = .sampleTexture)
      (huv : e.graph.inputValue o.node "UV" .float2 (meshUv o.node.uvChannel) = .ok uv) :
      Computes e o (sampleStatements o.node uv.expr (e.stage == .vertex))
  /-- A scene buffer is read once. -/
  | scene {buffer : SceneBuffer} {type : ValueType} {uv : Typed}
      (hbuffer : o.sceneBuffer? = some (buffer, type))
      (huv : e.graph.inputValue o.node "UV" .float2 screenUv = .ok uv) :
      Computes e o [.define type (o.node.variable "Out") (.scene buffer uv.expr)]
  /-- A keyword node is one choice. -/
  | keyword {k : Keyword} {type : ValueType} {value : String → Expr} (hkind : o.kind = .keyword)
      (hk : o.node.keyword e.keywords = .ok k) (htype : e.graph.outputType o "Out" = .ok type)
      (hvalue : ∀ b ∈ k.branches, ∃ v,
        e.graph.inputValue o.node b.2 type (zeroExpr type) = .ok v ∧ value b.2 = v.expr) :
      Computes e o
        [.select type (o.node.variable "Out") (k.branches.map fun b => ⟨b.1, value b.2⟩)]

theorem computes_operator {op : Operator} {type : ValueType} (hop : o.operator? = some op)
    (htype : e.graph.outputType o "Out" = .ok type)
    (h : operatorStatements e o.node op type = .ok statements) : o.Computes e statements := by
  obtain ⟨left, hleft, h⟩ := Outcome.bind_eq_ok_iff.mp h
  obtain ⟨right, hright, h⟩ := Outcome.bind_eq_ok_iff.mp h
  rw [← Outcome.pure_eq_ok_iff.mp h]
  exact .operator hop htype hleft hright

theorem computes_scene {buffer : SceneBuffer} {type : ValueType}
    (hbuffer : o.sceneBuffer? = some (buffer, type))
    (h : sceneStatements e o.node buffer type = .ok statements) : o.Computes e statements := by
  obtain ⟨uv, huv, h⟩ := Outcome.bind_eq_ok_iff.mp h
  rw [← Outcome.pure_eq_ok_iff.mp h]
  exact .scene hbuffer huv

/-- The statements of a constant; every kind of constant has a value. -/
theorem computes_constant {value : PropertyValue} (hvalue : o.constant? = some value)
    (h : .ok ((o.constant?.map (o.constantStatements e.mode)).getD []) =
      (.ok statements : Except GenerationError _)) : o.Computes e statements := by
  rw [← Except.ok.inj h, hvalue]
  exact .constant hvalue

/-- **The statements of a node have one of the shapes.** -/
theorem computes_of_statements (h : o.statements e = .ok statements) :
    o.Computes e statements := by
  obtain hkind | hkind := eq_or_ne o.kind .keyword
  · obtain ⟨k, type, value, hk, htype, hvalue, rfl⟩ := statements_keyword hkind h
    exact .keyword hkind hk htype hvalue
  unfold Operation.statements at h
  cases hk : o.kind with
  | master =>
    rw [hk] at h
    rw [← Except.ok.inj h]
    exact .master hk
  | color | float | vector =>
    rw [hk] at h
    exact computes_constant (by rw [constant?, hk]) h
  | time =>
    rw [hk] at h
    rw [← Except.ok.inj h, geometryStatements, hk]
    exact .time hk
  | uv | position | normal | vertexColor =>
    rw [hk] at h
    rw [← Except.ok.inj h, geometryStatements, hk]
    exact .geometry (by rw [geometryInput?, hk])
  | add | multiply =>
    rw [hk] at h
    obtain ⟨type, htype, h⟩ := Outcome.bind_eq_ok_iff.mp h
    exact computes_operator (by rw [operator?, hk]) htype h
  | sampleTexture =>
    rw [hk] at h
    obtain ⟨uv, huv, h⟩ := Outcome.bind_eq_ok_iff.mp h
    rw [← Outcome.pure_eq_ok_iff.mp h]
    exact .texture hk huv
  | sceneDepth | sceneColor =>
    rw [hk] at h
    exact computes_scene (by rw [sceneBuffer?, hk]) h
  | keyword => exact absurd hk hkind

end Operation
end MaterialShader
