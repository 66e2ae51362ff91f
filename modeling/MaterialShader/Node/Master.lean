import MaterialShader.Shading.Expr
import MaterialShader.Node.Kind
import MaterialShader.Pass.Basic
import MaterialShader.Stage.Requirement

/-!
# The master node

The output of the material.  It has no code of its own: its slots become the members
of the structs that the stages fill in.

## Main definitions

* `MasterSlot`, `MasterSlot.ofStage`, `MasterSlot.masked` — the slots of a stage.
* `Node.isTransparent`, `Operation.conditionalFields` — the fields that the master
  node switches on.
-/

namespace MaterialShader

open Shading (ValueType Expr)

/-- A slot of the master node. -/
structure MasterSlot where
  /-- The id of the input socket. -/
  id : String
  type : ValueType
  /-- The value where nothing is connected. -/
  default : Expr
  deriving DecidableEq, Repr, Inhabited

namespace MasterSlot

/-- A constant slot value with equal components. -/
def uniform (type : ValueType) (value : Single) : Expr :=
  .constant (List.replicate type.width value)

/-- The slots of the vertex stage. -/
def ofVertex : List MasterSlot := [
  ⟨"Position", .float3, .input (Requirements.positionInput .object)⟩,
  ⟨"Normal", .float3, .input (Requirements.normalInput .object)⟩]

/-- The slots of the pixel stage. -/
def ofPixel : List MasterSlot := [
  ⟨"BaseColor", .float3, uniform .float3 (.ofRatio 1 2)⟩,
  ⟨"Emission", .float3, uniform .float3 (.ofNat 0)⟩,
  ⟨"Alpha", .float, uniform .float (.ofNat 1)⟩,
  ⟨"AlphaClipThreshold", .float, uniform .float (.ofRatio 1 2)⟩]

/-- The slots of a stage. -/
def ofStage : Stage → List MasterSlot
  | .vertex => ofVertex
  | .pixel => ofPixel

/-- The slots of a stage that a pass evaluates, in the order of the pass; ids that
are no slots are passed over. -/
def masked (stage : Stage) (mask : List String) : List MasterSlot :=
  mask.filterMap fun id => (ofStage stage).find? fun s => s.id == id

end MasterSlot

/-- The slots of the output that a pass evaluates in a stage. -/
def Pass.slots (p : Pass) : Stage → List String
  | .vertex => p.vertexSlots
  | .pixel => p.pixelSlots

/-- The node asks for a transparent surface. -/
def Node.isTransparent (n : Node) : Bool :=
  n.params.text? "surface" == some "transparent" || n.params.text? "surface" == some "Transparent"

/-- The fields that a node switches on for a pass; only the master node does. -/
def Operation.conditionalFields (o : Operation) (p : Pass) : List Field :=
  if o.isMaster then
    (if p.vertexSlots.isEmpty then [] else [.graphVertex]) ++
      (if p.pixelSlots.isEmpty then [] else [.graphPixel]) ++
      [if o.node.isTransparent then .surfaceTransparent else .surfaceOpaque] ++
      (if o.node.params.flag? "alphaClip" = some true then [.alphaClip] else []) ++
      (if o.node.params.flag? "twoSided" = some true then [.doubleSided] else [])
  else []

end MaterialShader
