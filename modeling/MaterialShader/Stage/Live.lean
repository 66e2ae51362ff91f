import MaterialShader.Field.Active
import MaterialShader.Graph.Walk
import MaterialShader.Node.Branch
import MaterialShader.Node.Input
import MaterialShader.Node.Master

/-!
# Live nodes and active fields of a pass

For one pass: which nodes each stage evaluates, in which keyword permutations each
of them is live, and which fields are active in the base and in each permutation.

A node is live in a permutation if the walk that enters keyword nodes only by the
input the permutation selects reaches it.  What a node reads is switched on in the
base if the node is live everywhere, and otherwise in the permutations it is live
in.

## Main definitions

* `LiveNode`, `StageNodes` — the nodes of a stage.
* `seedFields` — the fields a pass starts with.
* `stageNodes` — the nodes of a stage, with the fields they switch on.
* `PassFields`, `passFields` — the result for a pass.
-/

namespace MaterialShader

/-- A node that a stage evaluates. -/
structure LiveNode where
  /-- The id of the node. -/
  id : String
  /-- The permutations the node is live in; none where there are no permutations. -/
  permutations : Option (List Nat)
  deriving DecidableEq, Repr, Inhabited

/-- The node is live somewhere. -/
def LiveNode.isLive (n : LiveNode) : Bool :=
  match n.permutations with
  | none => true
  | some indices => !indices.isEmpty

/-- The permutations that the code of the node is limited to, out of `count`; nothing
for a node that is live in all of them. -/
def LiveNode.guard? (n : LiveNode) (count : Nat) : Option (List Nat) :=
  n.permutations.filter fun indices => indices.length < count

/-- The nodes that a stage evaluates, in the order of the walk, and what the live
ones need. -/
structure StageNodes where
  nodes : List LiveNode
  /-- What the live nodes need together. -/
  requirements : Requirements
  deriving Repr, Inhabited

/-- No nodes. -/
def StageNodes.empty : StageNodes := ⟨[], .none⟩

/-! ### Live nodes -/

/-- The connections into a node that a permutation follows. -/
def Keywords.followsIn (ks : Keywords) (index : Nat) (n : Node) (c : Connection) : Bool :=
  NodeKind.ofTypeName? n.type != some .keyword || ks.followsSocket n c.target.socket index

/-- The walk of a stage for one permutation. -/
def permutationWalk (g : Graph) (output : String) (slots : Option (List String))
    (ks : Keywords) (index : Nat) : Walk :=
  ⟨g, output, slots, ks.followsIn index⟩

/-- The permutations of a node with the index of one more, added with every visit of its walk to
the node. -/
def addVisits (id : String) (indices : List Nat) (index : Nat) (walk : List String) : List Nat :=
  walk.foldl (fun indices visited => if visited = id then indices ++ [index] else indices) indices

/-- The permutations whose walks visit a node. -/
def livePermutations (walks : List (List String)) (id : String) : List Nat :=
  walks.zipIdx.foldl (fun indices p => addVisits id indices p.2 p.1) []

/-- The nodes of a stage with the permutations they are live in, out of `count`. -/
def liveNodes (g : Graph) (output : String) (slots : Option (List String)) (ks : Keywords)
    (count : Nat) : Except GenerationError (List LiveNode) := do
  -- this walk gives the order, those of the permutations only tell where nodes are live
  let ids ← Walk.collect ⟨g, output, slots, fun _ _ => true⟩
  if count = 0 then return ids.map fun id => ⟨id, none⟩
  else
    let walks ← (List.range count).mapM fun index =>
      (permutationWalk g output slots ks index).collect
    return ids.map fun id => ⟨id, some (livePermutations walks id)⟩

/-! ### Active fields -/

/-- The fields with what a node reads in a stage switched on. -/
def ActiveFields.activate (a : ActiveFields) (n : LiveNode) (fields : List Field) :
    ActiveFields :=
  match n.guard? a.permutationCount with
  | none => a.addToBase fields
  | some indices =>
      fields.foldl (fun a f => indices.foldl (fun a index => a.addToPermutation index f) a) a

/-- The fields and the needs of a stage after one more of its nodes. -/
def addLiveNode (g : Graph) (stage : Stage) (state : ActiveFields × Requirements)
    (n : LiveNode) : Except GenerationError (ActiveFields × Requirements) := do
  let o ← g.operation n.id
  let r := o.requirements g stage
  return (state.1.activate n (r.fields stage), if n.isLive then state.2.union r else state.2)

/-- The nodes of a stage, and the active fields with what they read. -/
def stageNodes (g : Graph) (output : String) (slots : Option (List String)) (ks : Keywords)
    (stage : Stage) (a : ActiveFields) : Except GenerationError (StageNodes × ActiveFields) := do
  let nodes ← liveNodes g output slots ks a.permutationCount
  let (a, requirements) ← nodes.foldlM (addLiveNode g stage) (a, Requirements.none)
  return (⟨nodes, requirements⟩, a)

/-- The fields that a pass starts with: those the output switches on, the preview's,
and those the pass requires. -/
def seedFields (output : Operation) (p : Pass) (mode : Mode) : List Field :=
  (if output.isMaster then output.conditionalFields p else [.graphPixel]) ++
    (if mode.isPreview then [.isPreview] else []) ++ p.requiredFields

/-- The active fields and the nodes of both stages of a pass. -/
structure PassFields where
  active : ActiveFields
  vertex : StageNodes
  pixel : StageNodes
  deriving Repr, Inhabited

namespace PassFields

/-- The nodes of a stage. -/
def stage (f : PassFields) : Stage → StageNodes
  | .vertex => f.vertex
  | .pixel => f.pixel

/-- What both stages need. -/
def requirements (f : PassFields) : Requirements :=
  f.vertex.requirements.union f.pixel.requirements

end PassFields

/-- The slots of an output that a stage of a pass follows: the master node has the
slots of the pass, and of any other node every input is followed. -/
def followedSlots (output : Operation) (p : Pass) (stage : Stage) : Option (List String) :=
  if output.isMaster then some (p.slots stage) else none

/-- The pass evaluates the graph in the vertex stage. -/
def evaluatesVertex (output : Operation) (p : Pass) : Bool :=
  output.isMaster && !p.vertexSlots.isEmpty

/-- The active fields and the nodes of a pass. -/
def passFields (g : Graph) (output : String) (p : Pass) (mode : Mode) (ks : Keywords) :
    Except GenerationError PassFields := do
  let o ← g.operation output
  let a := (ActiveFields.new ks.permutationCount).addToBase (seedFields o p mode)
  let (vertex, a) ←
    if evaluatesVertex o p then
      stageNodes g output (followedSlots o p .vertex) ks .vertex a
    else .ok (.empty, a)
  -- the pixel stage goes on with the fields that the vertex stage leaves
  let (pixel, a) ← stageNodes g output (followedSlots o p .pixel) ks .pixel a
  return ⟨a.propagate p.fieldDependencies, vertex, pixel⟩

end MaterialShader
