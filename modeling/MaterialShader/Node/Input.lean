import MaterialShader.Graph.Incoming
import MaterialShader.Node.Kind
import MaterialShader.Stage.Requirement

/-!
# Inputs from the pipeline

What nodes read from the pipeline: geometry nodes always, and others where an input
that could replace it is not connected.

## Main definitions

* `Node.uvChannel`, `Node.space` — what geometry nodes ask for.
* `Operation.requirements` — what the code of a node reads.
-/

namespace MaterialShader

/-- The texture coordinate a node reads; there are four. -/
def Node.uvChannel (n : Node) : Nat := min ((n.params.natural? "channel").getD 0) 3

theorem Node.uvChannel_le (n : Node) : n.uvChannel ≤ 3 := Nat.min_le_right _ _

/-- The space a node asks for. -/
def Node.space (n : Node) : Space :=
  if n.params.text? "space" = some "World" ∨ n.params.text? "space" = some "world" then .world
  else .object

/-- Nothing is connected to an input. -/
def Graph.isUnconnected (g : Graph) (n : Node) (socket : String) : Bool :=
  (g.incomingAt? n.id socket).isNone

/-- What the code of a node reads from the pipeline in a stage.  The master node
reads in the vertex stage what its unconnected slots pass on. -/
def Operation.requirements (g : Graph) (o : Operation) (stage : Stage) : Requirements :=
  let n := o.node
  match o.kind with
  | .master =>
      match stage with
      | .vertex =>
          { position := if g.isUnconnected n "Position" then .only .object else {}
            normal := if g.isUnconnected n "Normal" then .only .object else {} }
      | .pixel => .none
  | .sampleTexture => { uvChannels := if g.isUnconnected n "UV" then [n.uvChannel] else [] }
  | .time => { time := true }
  | .uv => { uvChannels := [n.uvChannel] }
  | .position => { position := .only n.space }
  | .normal => { normal := .only n.space }
  | .vertexColor => { vertexColor := true }
  | .sceneDepth => { depthTexture := true, screenPosition := g.isUnconnected n "UV" }
  | .sceneColor => { opaqueTexture := true, screenPosition := g.isUnconnected n "UV" }
  | .color | .float | .vector | .add | .multiply | .keyword => .none

end MaterialShader
