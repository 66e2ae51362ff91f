import MaterialShader.Proofs.StageType
import MaterialShader.Shader.Sections

/-!
# The errors of a pass

A pass is made from walks, from look-ups of nodes, from types and from keywords.  Once the first
walk has succeeded, the other ones do so as well, and their nodes are among those of the first.
So what is said of the errors of look-ups, types and keywords of these nodes holds of the errors
of the pass.

## Main definitions

* `Graph.ErrorsMeet` — the errors at some nodes meet a condition.

## Main results

* `failsOnly_passFields` — the errors of the nodes and fields of a pass.
* `Graph.ErrorsMeet.statements` — the errors of the code of a node.
* `Graph.ErrorsMeet.descriptionText` — the errors of a stage.
* `Graph.ErrorsMeet.passSections` — the errors of the sections of a pass.
-/

namespace MaterialShader

open Outcome (FailsOnly)
open Shading (Expr Helper ValueType)

variable {P : GenerationError → Prop} {g : Graph} {e : Evaluation} {output id : String}
  {ids : List String} {o out : Operation} {p : Pass} {mode : Mode} {ks : Keywords} {r : PassFields}

/-! ### The nodes of a pass -/

/-- No walk of a pass fails. -/
theorem exists_liveNodes (hwalk : g.evaluationOrder output = .ok ids)
    (slots : Option (List String)) (ks : Keywords) (count : Nat) :
    ∃ nodes, liveNodes g output slots ks count = .ok nodes := by
  have hcollect : ∀ w : Walk, w.graph = g → w.output = output → ∃ out, w.collect = .ok out := by
    rintro w rfl rfl
    obtain ⟨out, hout, -⟩ := Walk.collect_subset_of_unlimited hwalk
    exact ⟨out, hout⟩
  refine FailsOnly.exists_ok (FailsOnly.bind (FailsOnly.of_exists (hcollect _ rfl rfl)) ?_)
  intro ids _
  split
  · exact FailsOnly.ok _
  · refine FailsOnly.map (FailsOnly.mapM fun index _ => ?_)
    exact FailsOnly.of_exists (hcollect _ rfl rfl)

/-- The errors of the nodes and fields of a stage are those of look-ups. -/
theorem failsOnly_stageNodes (hwalk : g.evaluationOrder output = .ok ids)
    (hoperation : ∀ id ∈ ids, FailsOnly P (g.operation id)) (slots : Option (List String))
    (ks : Keywords) (stage : Stage) (a : ActiveFields) :
    FailsOnly P (stageNodes g output slots ks stage a) := by
  refine FailsOnly.bind (FailsOnly.of_exists (exists_liveNodes hwalk slots ks _)) ?_
  intro nodes hnodes
  refine FailsOnly.map (FailsOnly.foldlM fun state n hn => ?_)
  exact FailsOnly.map (hoperation n.id (mem_of_liveNodes hwalk hnodes hn))

/-- **The errors of the nodes and fields of a pass** are those of look-ups. -/
theorem failsOnly_passFields (hwalk : g.evaluationOrder output = .ok ids)
    (hoperation : ∀ id ∈ ids, FailsOnly P (g.operation id)) (p : Pass) (mode : Mode)
    (ks : Keywords) : FailsOnly P (passFields g output p mode ks) := by
  have houtput : output ∈ ids := (Walk.isOrdered_of_collect hwalk).2
  refine FailsOnly.bind (hoperation output houtput) fun o _ => ?_
  have hpixel : ∀ a, FailsOnly P (stageNodes g output (followedSlots o p .pixel) ks .pixel a) :=
    fun a => failsOnly_stageNodes hwalk hoperation _ ks .pixel a
  dsimp only
  split
  · refine FailsOnly.bind (failsOnly_stageNodes hwalk hoperation _ ks .vertex _) ?_
    exact fun vertex _ => FailsOnly.map (hpixel _)
  · exact FailsOnly.map (hpixel _)

/-- The nodes of both stages of a pass are among those of the walk. -/
theorem mem_of_passFields (hwalk : g.evaluationOrder output = .ok ids)
    (hfields : passFields g output p mode ks = .ok r) {stage : Stage} {n : LiveNode}
    (hn : n ∈ (r.stage stage).nodes) : n.id ∈ ids := by
  obtain ⟨_, -, -, hnodes | ⟨hnone, -⟩⟩ := passFields_liveNodes hfields stage
  · exact mem_of_liveNodes hwalk hnodes hn
  · exact absurd (hnone ▸ hn) List.not_mem_nil

/-! ### The code of a node -/

/-- The errors at some nodes meet a condition, whatever their code asks for. -/
structure Graph.ErrorsMeet (P : GenerationError → Prop) (g : Graph) (ks : Keywords)
    (ids : List String) : Prop where
  /-- The errors of looking them up. -/
  operation : ∀ id ∈ ids, FailsOnly P (g.operation id)
  /-- The errors of what is connected to their inputs. -/
  connected : ∀ id ∈ ids, ∀ o, g.operation id = .ok o → ∀ socket,
    FailsOnly P (g.connectedOutput o.node socket)
  /-- The errors of the types of their outputs. -/
  types : ∀ id ∈ ids, ∀ o, g.operation id = .ok o → ∀ socket, FailsOnly P (g.outputType o socket)
  /-- The errors of the keywords that they name. -/
  keyword : ∀ id ∈ ids, ∀ o, g.operation id = .ok o → o.kind = .keyword →
    FailsOnly P (o.node.keyword ks)

namespace Graph.ErrorsMeet

theorem mono {Q : GenerationError → Prop} (h : g.ErrorsMeet P ks ids) (hPQ : ∀ e, P e → Q e) :
    g.ErrorsMeet Q ks ids where
  operation := fun id hid => (h.operation id hid).mono hPQ
  connected := fun id hid o ho socket => (h.connected id hid o ho socket).mono hPQ
  types := fun id hid o ho socket => (h.types id hid o ho socket).mono hPQ
  keyword := fun id hid o ho hkind => (h.keyword id hid o ho hkind).mono hPQ

theorem inputValue (h : g.ErrorsMeet P ks ids) (hid : id ∈ ids) (ho : g.operation id = .ok o)
    (socket : String) (type : ValueType) (default : Expr) :
    FailsOnly P (g.inputValue o.node socket type default) := by
  refine FailsOnly.bind (h.connected id hid o ho socket) ?_
  rintro (_ | value) -
  · exact FailsOnly.ok _
  · exact FailsOnly.ok _

/-- **The errors of the code of a node.** -/
theorem statements (h : e.graph.ErrorsMeet P e.keywords ids) (hid : id ∈ ids)
    (ho : e.graph.operation id = .ok o) : FailsOnly P (o.statements e) := by
  have hinput : ∀ socket type default, FailsOnly P
      (e.graph.inputValue o.node socket type default) := h.inputValue hid ho
  have htype : FailsOnly P (e.graph.outputType o "Out") := h.types id hid o ho "Out"
  unfold Operation.statements
  cases hkind : o.kind with
  | master | color | float | vector | time | uv | position | normal | vertexColor =>
    exact FailsOnly.ok _
  | add | multiply =>
    refine FailsOnly.bind htype fun type _ => ?_
    refine FailsOnly.bind (hinput _ _ _) fun left _ => ?_
    exact FailsOnly.map (hinput _ _ _)
  | sampleTexture | sceneDepth | sceneColor => exact FailsOnly.map (hinput _ _ _)
  | keyword =>
    refine FailsOnly.bind (h.keyword id hid o ho hkind) fun k _ => ?_
    refine FailsOnly.bind htype fun type _ => ?_
    exact FailsOnly.map (FailsOnly.mapM fun b _ => FailsOnly.map (hinput _ _ _))

theorem helper? (h : g.ErrorsMeet P ks ids) (hid : id ∈ ids) (ho : g.operation id = .ok o) :
    FailsOnly P (o.helper? g) := by
  unfold Operation.helper?
  cases o.operator? with
  | none => exact FailsOnly.ok none
  | some op => exact FailsOnly.map (h.types id hid o ho "Out")

/-! ### The code of a stage -/

theorem stageCode (h : e.graph.ErrorsMeet P e.keywords ids) {nodes : StageNodes}
    (hnodes : ∀ n ∈ nodes.nodes, n.id ∈ ids) (count : Nat) :
    FailsOnly P (MaterialShader.stageCode e nodes count) := by
  refine FailsOnly.map (FailsOnly.mapM fun n hn => ?_)
  unfold liveNodeCode
  split
  · exact FailsOnly.ok _
  · refine FailsOnly.bind (h.operation n.id (hnodes n hn)) fun o ho => ?_
    refine FailsOnly.bind (FailsOnly.map (h.statements (hnodes n hn) ho)) fun code _ => ?_
    -- what is made of the code does not fail any more
    dsimp only
    split
    · exact FailsOnly.ok _
    · split <;> exact FailsOnly.ok _

theorem descriptionSlots (h : e.graph.ErrorsMeet P e.keywords ids) (houtput : output ∈ ids)
    (hout : e.graph.operation output = .ok out) (p : Pass) :
    FailsOnly P (MaterialShader.descriptionSlots e out p) := by
  unfold MaterialShader.descriptionSlots
  split
  · exact FailsOnly.mapM fun s _ =>
      FailsOnly.map (h.inputValue houtput hout s.id s.type s.default)
  · cases e.stage with
    | vertex => exact FailsOnly.ok []
    | pixel => exact FailsOnly.map (h.types output houtput out hout out.primaryOutput)

/-- **The errors of a stage** are those of its nodes. -/
theorem descriptionText (h : e.graph.ErrorsMeet P e.keywords ids) (houtput : output ∈ ids)
    (hout : e.graph.operation output = .ok out) (p : Pass) {nodes : StageNodes}
    (hnodes : ∀ n ∈ nodes.nodes, n.id ∈ ids) (count : Nat) :
    FailsOnly P (MaterialShader.descriptionText e out p nodes count) := by
  refine FailsOnly.map (FailsOnly.bind (h.descriptionSlots houtput hout p) fun slots _ => ?_)
  split
  · exact FailsOnly.ok _
  · exact FailsOnly.map (FailsOnly.map (h.stageCode hnodes count))

theorem collectHelpers (h : g.ErrorsMeet P ks ids) {nodes : StageNodes}
    (hnodes : ∀ n ∈ nodes.nodes, n.id ∈ ids) (helpers : List Helper) :
    FailsOnly P (MaterialShader.collectHelpers g nodes helpers) := by
  refine FailsOnly.foldlM fun helpers n hn => ?_
  have hid : n.id ∈ ids := hnodes n (List.mem_filter.mp hn).1
  refine FailsOnly.bind (h.operation n.id hid) fun o ho => ?_
  refine FailsOnly.bind (h.helper? hid ho) ?_
  rintro (_ | helper) -
  · exact FailsOnly.ok _
  · exact FailsOnly.ok _

/-! ### The sections of a pass -/

/-- **The errors of the sections of a pass** are those of its nodes. -/
theorem passSections {m : Material} (h : m.graph.ErrorsMeet P m.keywords ids)
    (hwalk : m.graph.evaluationOrder output = .ok ids)
    (hout : m.graph.operation output = .ok m.output)
    (hfields : passFields m.graph output p mode ks = .ok r) (debug : Bool) :
    FailsOnly P (MaterialShader.passSections m p r debug) := by
  have houtput : output ∈ ids := (Walk.isOrdered_of_collect hwalk).2
  have hnodes : ∀ stage, ∀ n ∈ (r.stage stage).nodes, n.id ∈ ids :=
    fun stage n hn => mem_of_passFields hwalk hfields hn
  have hdescription : ∀ stage, FailsOnly P (m.description p r stage) := fun stage =>
    descriptionText (e := m.evaluation stage) h houtput hout p (hnodes stage)
      r.active.permutationCount
  have hhelpers : FailsOnly P (passHelpers m.graph r) :=
    FailsOnly.bind (h.collectHelpers (hnodes .vertex) []) fun helpers _ =>
      h.collectHelpers (hnodes .pixel) helpers
  refine FailsOnly.bind hhelpers fun helpers _ => ?_
  exact FailsOnly.bind (hdescription .vertex) fun vertex _ => FailsOnly.map (hdescription .pixel)

end Graph.ErrorsMeet
end MaterialShader
