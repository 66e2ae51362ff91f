import MaterialShader.Node.Code
import MaterialShader.Pass.Section
import MaterialShader.Stage.Live

/-!
# Descriptions

The code that a stage evaluates the graph with: a struct with one member for each
slot of the output, and a function that runs the code of the live nodes and fills in
the struct.

## Main definitions

* `DescriptionSlot`, `descriptionSlots` — the members and their values.
* `liveNodeCode` — the code of the live nodes.
* `descriptionCode`, `descriptionText` — the struct and the function.
* `collectHelpers` — the helper functions that the code calls.
-/

namespace MaterialShader

open Shading (Typed Helper)

/-- A member of a description and its value. -/
structure DescriptionSlot where
  /-- The name of the member. -/
  name : String
  value : Typed
  deriving DecidableEq, Repr, Inhabited

/-- The value of a slot of the master node. -/
def masterSlotValue (g : Graph) (n : Node) (s : MasterSlot) :
    Except GenerationError DescriptionSlot := do
  return ⟨s.id, ← g.inputValue n s.id s.type s.default⟩

/-- The members of the description of a stage.  The master node has its slots in the
pass; any other output has one member in the pixel stage, its main output as a vector
of four floats. -/
def descriptionSlots (e : Evaluation) (output : Operation) (p : Pass) :
    Except GenerationError (List DescriptionSlot) :=
  if output.isMaster then
    (MasterSlot.masked e.stage (p.slots e.stage)).mapM (masterSlotValue e.graph output.node)
  else
    match e.stage with
    | .vertex => .ok []
    | .pixel => do
        let socket := output.primaryOutput
        let type ← e.graph.outputType output socket
        let value : Typed := ⟨type, .variable (output.node.variable socket)⟩
        return [⟨"Out", value.coerce .float4⟩]

/-- The struct of a description. -/
def descriptionStruct (stage : Stage) (slots : List DescriptionSlot) : List Code :=
  [.line ("struct " ++ stage.descriptionName),
    .nested .declaration (slots.map fun s => .line (s.value.type.name ++ " " ++ s.name ++ ";"))]

/-- The code of one node in the permutations it is live in; a node that is live
nowhere has none. -/
def liveNodeCode (e : Evaluation) (count : Nat) (n : LiveNode) :
    Except GenerationError (List Code) := do
  if !n.isLive then return []
  else
    let o ← e.graph.operation n.id
    let code ← o.code e
    if code.isEmpty then return []
    else
      let body : List Code := [.lines (Code.fullText 0 code)]
      match n.guard? count with
      | some indices => return Code.guarded (permutationsCondition indices) body
      | none => return body

/-- The code of the nodes of a stage. -/
def stageCode (e : Evaluation) (nodes : StageNodes) (count : Nat) :
    Except GenerationError (List Code) := do
  return (← nodes.nodes.mapM (liveNodeCode e count)).flatten

/-- The function of a description. -/
def descriptionFunction (e : Evaluation) (nodes : StageNodes) (count : Nat)
    (slots : List DescriptionSlot) : Except GenerationError (List Code) := do
  let name := e.stage.descriptionName
  let result := e.stage.descriptionVariable
  let body ← stageCode e nodes count
  return [.line (name ++ " " ++ name ++ "Function(" ++ e.stage.inputsTag ++ " IN)"),
    .nested .block
      (.line (name ++ " " ++ result ++ " = (" ++ name ++ ")0;") :: body ++
        slots.map (fun s =>
          .line (result ++ "." ++ s.name ++ " = " ++ s.value.expr.text ++ ";")) ++
        [.line ("return " ++ result ++ ";")])]

/-- The struct and the function of a description; without members there is no
code. -/
def descriptionCode (e : Evaluation) (output : Operation) (p : Pass) (nodes : StageNodes)
    (count : Nat) : Except GenerationError (List Code) := do
  let slots ← descriptionSlots e output p
  if slots.isEmpty then return []
  else
    return descriptionStruct e.stage slots ++ [.newline] ++
      (← descriptionFunction e nodes count slots)

/-- The section of a description. -/
def descriptionText (e : Evaluation) (output : Operation) (p : Pass) (nodes : StageNodes)
    (count : Nat) : Except GenerationError String := do
  let code ← descriptionCode e output p nodes count
  return if code.isEmpty then nonePlaceholder else Code.text code

/-- Helper functions with those that the live nodes of a stage call. -/
def collectHelpers (g : Graph) (nodes : StageNodes) (helpers : List Helper) :
    Except GenerationError (List Helper) :=
  (nodes.nodes.filter LiveNode.isLive).foldlM
    (fun helpers n => do
      let o ← g.operation n.id
      match ← o.helper? g with
      | some h => return Shading.addHelper helpers h
      | none => return helpers)
    helpers

end MaterialShader
