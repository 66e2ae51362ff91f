import MaterialShader.Proofs.GraphAgreement
import MaterialShader.Shader.Generate

/-!
# Generations from graphs that agree

The code of a node is made from the node, from what is connected to its inputs and from types.
So two graphs that agree on the nodes of a walk, and on the types of their outputs, lead to the
same shader.  Where the types cannot be compared because the first graph has none, the same is
said of all that is made with them: it is the same, unless it fails in the way the type does.

## Main definitions

* `Graph.AgreesUnless` — two graphs agree on some nodes and on the types of their outputs.

## Main results

* `Graph.AgreesUnless.statements` — the code of a node.
* `Graph.AgreesUnless.passSections` — the sections of a pass.
* `Generator.sameUnless_generate` — the shader.
-/

namespace MaterialShader

open Outcome (FailsWith SameUnless)
open Shading (Expr Helper Operator ValueType)

namespace Graph

/-- Two graphs agree on some nodes and on the types of their outputs, unless the first one fails
to give a type in a certain way. -/
structure AgreesUnless (P : GenerationError → Prop) (g g' : Graph) (U : String → Prop) : Prop
    extends g.AgreesOn g' U where
  /-- The types of the outputs are the same. -/
  types : ∀ o, U o.node.id → ∀ socket,
    SameUnless P (g.outputType o socket) (g'.outputType o socket)

namespace AgreesUnless

variable {P : GenerationError → Prop} {g g' : Graph} {U : String → Prop} {n : Node}
  {o : Operation} {e : Evaluation}

/-! ### The code of a node -/

theorem connectedOutput (h : g.AgreesUnless P g' U) (hid : U n.id) (socket : String) :
    SameUnless P (g.connectedOutput n socket) (g'.connectedOutput n socket) := by
  rw [Graph.connectedOutput, Graph.connectedOutput, h.connected_eq hid]
  refine (SameUnless.refl _).bind fun connected? hconnected => ?_
  cases connected? with
  | none => exact SameUnless.refl _
  | some source => exact (h.types source.1 (h.of_connected hid hconnected) source.2).map

theorem inputValue (h : g.AgreesUnless P g' U) (hid : U n.id) (socket : String)
    (type : ValueType) (default : Expr) :
    SameUnless P (g.inputValue n socket type default) (g'.inputValue n socket type default) :=
  (h.connectedOutput hid socket).bind fun _ _ => SameUnless.refl _

/-- **The code of a node** is the same. -/
theorem statements (h : e.graph.AgreesUnless P g' U) (hid : U o.node.id) :
    SameUnless P (o.statements e) (o.statements { e with graph := g' }) := by
  have hinput : ∀ socket type default, SameUnless P (e.graph.inputValue o.node socket type default)
      (g'.inputValue o.node socket type default) := h.inputValue hid
  have htype := h.types o hid "Out"
  have hoperator : ∀ op type, SameUnless P (Operation.operatorStatements e o.node op type)
      (Operation.operatorStatements { e with graph := g' } o.node op type) := by
    intro op type
    exact (hinput _ _ _).bind fun left _ => (hinput _ _ _).map
  unfold Operation.statements
  cases o.kind with
  | master | color | float | vector | time | uv | position | normal | vertexColor =>
    exact SameUnless.refl _
  | add | multiply => exact htype.bind fun type _ => hoperator _ type
  | sampleTexture | sceneDepth | sceneColor => exact (hinput _ _ _).map
  | keyword =>
    refine (SameUnless.refl _).bind fun k _ => htype.bind fun type _ => ?_
    exact (SameUnless.mapM fun b _ => (hinput _ _ _).map).map

theorem helper? (h : g.AgreesUnless P g' U) (hid : U o.node.id) :
    SameUnless P (o.helper? g) (o.helper? g') := by
  unfold Operation.helper?
  cases o.operator? with
  | none => exact SameUnless.refl _
  | some op => exact (h.types o hid "Out").map

/-! ### The code of a stage -/

theorem liveNodeCode (h : e.graph.AgreesUnless P g' U) {n : LiveNode} (hn : U n.id) (count : Nat) :
    SameUnless P (MaterialShader.liveNodeCode e count n)
      (MaterialShader.liveNodeCode { e with graph := g' } count n) := by
  unfold MaterialShader.liveNodeCode
  split
  · exact SameUnless.refl _
  · show SameUnless P (e.graph.operation n.id >>= _) (g'.operation n.id >>= _)
    rw [h.operation_eq hn]
    refine (SameUnless.refl _).bind fun o ho => ?_
    have hid : U o.node.id := by rwa [id_of_operation ho]
    exact SameUnless.bind (h.statements hid).map fun code _ => SameUnless.refl _

theorem stageCode (h : e.graph.AgreesUnless P g' U) {nodes : StageNodes}
    (hnodes : ∀ n ∈ nodes.nodes, U n.id) (count : Nat) :
    SameUnless P (MaterialShader.stageCode e nodes count)
      (MaterialShader.stageCode { e with graph := g' } nodes count) :=
  SameUnless.map (SameUnless.mapM fun n hn => h.liveNodeCode (hnodes n hn) count)

theorem descriptionSlots (h : e.graph.AgreesUnless P g' U) (hid : U o.node.id) (p : Pass) :
    SameUnless P (MaterialShader.descriptionSlots e o p)
      (MaterialShader.descriptionSlots { e with graph := g' } o p) := by
  unfold MaterialShader.descriptionSlots
  split
  · exact SameUnless.mapM fun s _ => (h.inputValue hid s.id s.type s.default).map
  · dsimp only
    cases e.stage with
    | vertex => exact SameUnless.refl _
    | pixel => exact (h.types o hid o.primaryOutput).map

theorem descriptionText (h : e.graph.AgreesUnless P g' U) (hid : U o.node.id) (p : Pass)
    {nodes : StageNodes} (hnodes : ∀ n ∈ nodes.nodes, U n.id) (count : Nat) :
    SameUnless P (MaterialShader.descriptionText e o p nodes count)
      (MaterialShader.descriptionText { e with graph := g' } o p nodes count) := by
  refine SameUnless.map ((h.descriptionSlots hid p).bind fun slots _ => ?_)
  split
  · exact SameUnless.refl _
  · exact SameUnless.map (SameUnless.map (h.stageCode hnodes count))

theorem collectHelpers (h : g.AgreesUnless P g' U) {nodes : StageNodes}
    (hnodes : ∀ n ∈ nodes.nodes, U n.id) (helpers : List Helper) :
    SameUnless P (MaterialShader.collectHelpers g nodes helpers)
      (MaterialShader.collectHelpers g' nodes helpers) := by
  refine SameUnless.foldlM fun helpers n hn => ?_
  have hid : U n.id := hnodes n (List.mem_filter.mp hn).1
  rw [h.operation_eq hid]
  refine (SameUnless.refl _).bind fun o ho => ?_
  exact (h.helper? (by rwa [id_of_operation ho])).bind fun helper? _ => SameUnless.refl _

/-! ### The sections of a pass -/

/-- **The sections of a pass** are the same. -/
theorem passSections {m : Material} {p : Pass} {r : PassFields}
    (h : m.graph.AgreesUnless P g' U) (hkeywords : g'.keywords = m.graph.keywords)
    (hid : U m.output.node.id) (hnodes : ∀ stage, ∀ n ∈ (r.stage stage).nodes, U n.id)
    (debug : Bool) :
    SameUnless P (MaterialShader.passSections m p r debug)
      (MaterialShader.passSections { m with graph := g' } p r debug) := by
  have hmaterial : Material.keywords { m with graph := g' } = m.keywords := hkeywords
  have hhelpers : SameUnless P (passHelpers m.graph r) (passHelpers g' r) :=
    (h.collectHelpers (hnodes .vertex) []).bind fun helpers _ =>
      h.collectHelpers (hnodes .pixel) helpers
  have hdescription : ∀ stage, SameUnless P (m.description p r stage)
      (Material.description { m with graph := g' } p r stage) := by
    intro stage
    have hevaluation : Material.evaluation { m with graph := g' } stage =
        { m.evaluation stage with graph := g' } := by
      rw [Material.evaluation, hmaterial]
      rfl
    rw [Material.description, Material.description, hevaluation]
    exact descriptionText (e := m.evaluation stage) h hid p (hnodes stage) _
  unfold MaterialShader.passSections
  rw [hmaterial]
  refine hhelpers.bind fun helpers _ => ?_
  exact (hdescription .vertex).bind fun vertex _ => (hdescription .pixel).map

end AgreesUnless
end Graph

/-! ### The shader -/

namespace Generator

variable {P : GenerationError → Prop} {s : Generator} {g' : Graph} {U : String → Prop}
  {output : String} {mode : Mode}

/-- The generation from another graph. -/
def withGraph (s : Generator) (g : Graph) : Generator := { s with graph := g }

@[simp] theorem graph_withGraph (s : Generator) (g : Graph) : (s.withGraph g).graph = g := rfl

@[simp] theorem catalog_withGraph (s : Generator) (g : Graph) :
    (s.withGraph g).catalog = s.catalog := rfl

@[simp] theorem preview_withGraph (s : Generator) (g : Graph) :
    (s.withGraph g).preview = s.preview := rfl

@[simp] theorem config_withGraph (s : Generator) (g : Graph) :
    (s.withGraph g).config = s.config := rfl

theorem passText_agrees {m : Material} (h : m.graph.AgreesUnless P g' U)
    (hkeywords : g'.keywords = m.graph.keywords) (hid : U m.output.node.id) (p : Pass) :
    SameUnless P (s.passText m p) ((s.withGraph g').passText { m with graph := g' } p) := by
  have hmaterial : Material.keywords { m with graph := g' } = m.keywords := hkeywords
  have hincluded : includesPass { m with graph := g' } p = includesPass m p := rfl
  unfold passText
  rw [hincluded]
  split
  · exact SameUnless.refl _
  · rw [hmaterial, h.passFields_eq hid]
    refine (SameUnless.refl _).bind fun r hfields => ?_
    exact (h.passSections hkeywords hid (h.mem_of_passFields hid hfields) _).bind fun sections _ =>
      SameUnless.refl _

/-- The text around subshaders says nothing of the graph but its name. -/
theorem shaderText_withGraph (hmetadata : g'.metadata = s.graph.metadata) :
    (s.withGraph g').shaderText = s.shaderText := by
  have hpath : g'.shaderPath = s.graph.shaderPath := by
    rw [Graph.shaderPath, Graph.shaderPath, hmetadata]
  funext properties subShaders
  rw [shaderText, shaderText, graph_withGraph, config_withGraph, hpath]

/-- Beyond the limit, the shader says how many permutations there are. -/
theorem limitedShader_withGraph (hmetadata : g'.metadata = s.graph.metadata)
    (hkeywords : g'.keywords = s.graph.keywords) (properties : List Property) :
    (s.withGraph g').limitedShader properties = s.limitedShader properties := by
  rw [limitedShader, limitedShader, shaderText_withGraph hmetadata, graph_withGraph,
    config_withGraph, hkeywords]

/-- The subshaders of graphs that are made for the same targets are the same. -/
theorem fullShader_agrees {m : Material} (hgraph : m.graph = s.graph)
    (h : s.graph.AgreesUnless P g' U) (hmetadata : g'.metadata = s.graph.metadata)
    (hkeywords : g'.keywords = s.graph.keywords) (htargets : g'.targets = s.graph.targets)
    (hid : U m.output.node.id) :
    SameUnless P (s.fullShader m) ((s.withGraph g').fullShader { m with graph := g' }) := by
  have htargetsFor : s.catalog.targetsFor s.preview g' m.output.isMaster =
      s.catalog.targetsFor s.preview s.graph m.output.isMaster := by
    unfold Catalog.targetsFor Catalog.accepting Target.accepts
    rw [htargets]
  have hpasses : ∀ sub : SubShader, SameUnless P (s.subShaderPasses m sub)
      ((s.withGraph g').subShaderPasses { m with graph := g' } sub) := by
    intro sub
    refine SameUnless.map (SameUnless.mapM fun p _ => ?_)
    exact passText_agrees (hgraph ▸ h) (hgraph ▸ hkeywords) hid p
  rw [fullShader, fullShader, shaderText_withGraph hmetadata, catalog_withGraph, preview_withGraph,
    graph_withGraph, htargetsFor]
  exact SameUnless.map (SameUnless.mapM fun sub _ => hpasses sub)

/-- **The shader is the same** for two graphs that agree on some nodes, the output among
them. -/
theorem sameUnless_generate (h : s.graph.AgreesUnless P g' U)
    (hmetadata : g'.metadata = s.graph.metadata) (hkeywords : g'.keywords = s.graph.keywords)
    (htargets : g'.targets = s.graph.targets) (houtput : U output) :
    SameUnless P (s.generate output mode) ((s.withGraph g').generate output mode) := by
  have hproperties : ∀ ids, (∀ id ∈ ids, U id) →
      collectProperties g' mode ids = collectProperties s.graph mode ids := by
    intro ids hids
    refine Outcome.foldlM_congr fun properties id hid => ?_
    rw [h.operation_eq (hids id hid)]
  rw [generate, generate, graph_withGraph, config_withGraph, h.evaluationOrder_eq houtput,
    h.operation_eq houtput, hkeywords]
  refine (SameUnless.refl _).bind fun ids hids => ?_
  refine (SameUnless.refl _).bind fun o ho => ?_
  rw [hproperties ids (h.mem_of_evaluationOrder houtput hids)]
  refine (SameUnless.refl _).bind fun properties _ => ?_
  have hid : U o.node.id := by rwa [Graph.id_of_operation ho]
  rw [limitedShader_withGraph hmetadata hkeywords]
  split
  · exact SameUnless.refl _
  · exact fullShader_agrees (m := ⟨s.graph, o, mode, properties⟩) rfl h hmetadata hkeywords
      htargets hid

end Generator
end MaterialShader
