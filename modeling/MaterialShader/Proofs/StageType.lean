import MaterialShader.Proofs.CollectedProperty
import MaterialShader.Proofs.HelperFunction
import MaterialShader.Proofs.NodeType
import MaterialShader.Proofs.StageOrder
import MaterialShader.Proofs.WalkReach

/-!
# Types of the code of a stage

The nodes of a stage stand in an order in which every node comes after those it reads, so the
types of the variables before it and of its own are all that its statements need, besides the
properties of the shader.  Connections have to leave outputs that the code declares: an output
that a document makes up is written into the code as a variable that is nowhere declared.  Two
more things are asked for where they matter.  An output that a document lists for a node that is
previewed is nowhere declared either, which only the value of its slot can show.  And nodes that
name one property have to agree on its type for the statements that read it to have theirs.

## Main definitions

* `Graph.LeavesDeclaredOutput` — a connection comes from an output that code declares.
* `Evaluation.typeContext` — the types of the names that code after some nodes uses.
* `Graph.HasDistinctVariables` — the outputs of some nodes have different variables.

## Main results

* `Evaluation.isFunctional_typeContext` — variables that differ have one type each.
* `Operation.isServedBy_typeContext` — the nodes before a node know the names it uses.
* `isTyped_of_passFields` — the code of a stage is typed.
-/

namespace MaterialShader

open Shading (ValueType Typed Expr Statement TypeContext Helper)

/-! ### The names that a stage knows -/

/-- A connection comes from an output that the code of its node declares. -/
def Graph.LeavesDeclaredOutput (g : Graph) (c : Connection) : Prop :=
  ∀ o, g.operation c.source.node = .ok o → c.source.socket ∈ o.declaredOutputs

instance (g : Graph) (c : Connection) : Decidable (g.LeavesDeclaredOutput c) :=
  inferInstanceAs (Decidable (∀ o, g.operation c.source.node = .ok o → _))

/-- The types of the names that code after some nodes uses: the variables of the outputs of those
nodes, and the properties that the shader declares.  A node that is live nowhere counts too,
although it has no code: what reads it stands in branches that are never taken. -/
def Evaluation.typeContext (e : Evaluation) (properties : List Property) (nodes : List LiveNode) :
    TypeContext where
  locals name t := ∃ n ∈ nodes, ∃ o, e.graph.operation n.id = .ok o ∧
    ∃ socket ∈ o.declaredOutputs, name = o.node.variable socket ∧
      e.graph.outputType o socket = .ok t
  properties name t := ∃ p ∈ properties, p.referenceName = name ∧ p.value.typeName = t.name

variable {e : Evaluation} {output : String} {out o : Operation} {p : Pass} {r : PassFields}
  {n : LiveNode} {pre post nodes : List LiveNode} {count : Nat} {ids : List String}
  {properties : List Property}

/-- The outputs of some nodes have different variables. -/
def Graph.HasDistinctVariables (g : Graph) (nodes : List LiveNode) : Prop :=
  ∀ n ∈ nodes, ∀ m ∈ nodes, ∀ o, g.operation n.id = .ok o → ∀ u, g.operation m.id = .ok u →
    ∀ a ∈ o.declaredOutputs, ∀ b ∈ u.declaredOutputs,
      o.node.variable a = u.node.variable b → n.id = m.id ∧ a = b

instance (g : Graph) (nodes : List LiveNode) : Decidable (g.HasDistinctVariables nodes) :=
  inferInstanceAs (Decidable (∀ n ∈ nodes, ∀ m ∈ nodes, ∀ o, g.operation n.id = .ok o →
    ∀ u, g.operation m.id = .ok u → _))

/-- Where different outputs have different variables, no name has two types. -/
theorem Evaluation.isFunctional_typeContext
    (hproperties : collectProperties e.graph e.mode ids = .ok properties)
    (hvariables : e.graph.HasDistinctVariables nodes) :
    (e.typeContext properties nodes).IsFunctional where
  locals name t u := by
    rintro ⟨n, hn, o, ho, a, ha, rfl, ht⟩ ⟨m, hm, o', ho', b, hb, hname, hu⟩
    obtain ⟨hid, rfl⟩ := hvariables n hn m hm o ho o' ho' a ha b hb hname
    obtain rfl : o = o' := Except.ok.inj (ho.symm.trans (hid ▸ ho'))
    exact Except.ok.inj (ht.symm.trans hu)
  properties name t u := by
    rintro ⟨p, hp, rfl, ht⟩ ⟨q, hq, hname, hu⟩
    obtain ⟨-, -, hnodup⟩ := collectProperties_spec hproperties
    obtain rfl := List.inj_on_of_nodup_map hnodup hq hp hname
    exact ValueType.name_injective (ht.symm.trans hu)

/-- The variable that a connection brings is known once the node that it comes from is. -/
theorem locals_of_source (hports : ∀ c ∈ e.graph.connections, e.graph.LeavesDeclaredOutput c)
    {node socket : String} {c : Connection} (hc : e.graph.incomingAt? node socket = some c)
    {m : LiveNode} (hm : m ∈ nodes) (hid : m.id = c.source.node) {source : Operation}
    (hsource : e.graph.operation c.source.node = .ok source) {t : ValueType}
    (ht : e.graph.outputType source c.source.socket = .ok t) :
    (e.typeContext properties nodes).locals (source.node.variable c.source.socket) t :=
  ⟨m, hm, source, hid ▸ hsource, c.source.socket,
    hports c (Graph.mem_of_incomingAt? hc) source hsource, rfl, ht⟩

theorem Graph.id_of_operation {g : Graph} {id : String} (h : g.operation id = .ok o) :
    o.node.id = id := by
  obtain ⟨node, hnode, ho⟩ := Outcome.bind_eq_ok_iff.mp h
  rw [Operation.node_of_ofNode ho]
  exact id_of_findNode hnode

/-- A stage has no nodes beyond those of the walk from its output. -/
theorem mem_of_liveNodes {g : Graph} {slots : Option (List String)} {ks : Keywords}
    (hwalk : g.evaluationOrder output = .ok ids)
    (h : liveNodes g output slots ks count = .ok nodes) (hn : n ∈ nodes) : n.id ∈ ids := by
  obtain ⟨hstage, -, -⟩ := liveNodes_spec h
  obtain ⟨out, hout, hsubset⟩ :=
    Walk.collect_subset_of_unlimited (w := ⟨g, output, slots, fun _ _ => true⟩) hwalk
  rw [Except.ok.inj (hout.symm.trans hstage)] at hsubset
  exact hsubset (List.mem_map_of_mem hn)

theorem Operation.property?_of_backingProperty? {mode : Mode} {property : Property}
    (h : o.backingProperty? mode = some property) : o.property? mode = some property := by
  unfold property?
  split
  · -- a texture is no constant
    next hkind =>
    have hvalue := value_backingProperty? h
    rw [constant?, hkind] at hvalue
    exact absurd hvalue (by rintro ⟨⟩)
  · exact h

/-- **The nodes before a node and the node itself know the names that it uses.** -/
theorem Operation.isServedBy_typeContext (hids : (e.graph.connections.map Connection.id).Nodup)
    (hports : ∀ c ∈ e.graph.connections, e.graph.LeavesDeclaredOutput c)
    (hwalk : e.graph.evaluationOrder output = .ok ids)
    (hproperties : collectProperties e.graph e.mode ids = .ok properties)
    (hagree : AgreeOnTypes (e.graph.propertiesBehind e.mode ids))
    (hout : e.graph.operation output = .ok out)
    (h : liveNodes e.graph output (followedSlots out p e.stage) e.keywords count = .ok nodes)
    (hsplit : nodes = pre ++ n :: post) (ho : e.graph.operation n.id = .ok o)
    (hkind : o.kind ≠ .master) : o.IsServedBy e (e.typeContext properties (pre ++ [n])) where
  own socket hsocket t ht :=
    ⟨n, List.mem_append_right _ (List.mem_singleton_self n), o, ho, socket, hsocket, rfl, ht⟩
  property property t hproperty ht := by
    have hn : n ∈ nodes := hsplit ▸ List.mem_append_right _ List.mem_cons_self
    have hbehind : property ∈ e.graph.propertiesBehind e.mode ids := Graph.mem_propertiesBehind.mpr
      ⟨n.id, mem_of_liveNodes hwalk h hn, o, ho, property?_of_backingProperty? hproperty⟩
    obtain ⟨q, hq, hname, htype⟩ := exists_collected_of_agreeOnTypes hproperties hagree hbehind
    exact ⟨q, hq, hname, htype.trans ht.symm⟩
  source socket c source t hc hsource ht := by
    rw [Graph.id_of_operation ho] at hc
    obtain ⟨m, hm, hid, -⟩ := exists_source_of_incomingAt? hids hout h hsplit ho hkind hc
    exact locals_of_source hports hc (List.mem_append_left _ hm) hid hsource ht

/-! ### The slots of the output -/

theorem MasterSlot.hasType_default {Γ : TypeContext} {stage : Stage} {s : MasterSlot}
    (h : s ∈ MasterSlot.ofStage stage) : s.default.HasType Γ s.type := by
  cases stage with
  | vertex =>
    rcases List.mem_cons.mp h with rfl | h
    · exact .input (by decide)
    · rw [List.mem_singleton.mp h]
      exact .input (by decide)
  | pixel =>
    simp only [ofStage, ofPixel, List.mem_cons, List.not_mem_nil, or_false] at h
    rcases h with rfl | rfl | rfl | rfl <;> exact Operation.hasType_replicate

/-- The output is evaluated in the pixel stage of every pass. -/
theorem exists_output_of_pixel (h : passFields e.graph output p e.mode e.keywords = .ok r) :
    ∃ n ∈ (r.stage .pixel).nodes, n.id = output := by
  obtain ⟨out, a, b, -, -, -, hnodes, -⟩ := passFields_collected h
  obtain ⟨pre, n, post, hsplit, hid, -⟩ := exists_output_of_liveNodes hnodes
  refine ⟨n, ?_, hid⟩
  show n ∈ r.pixel.nodes
  rw [hsplit]
  exact List.mem_append_right _ List.mem_cons_self

/-- The struct of a description has a member for each slot, of the type of its value. -/
theorem mem_textLines_descriptionStruct {stage : Stage} {slots : List DescriptionSlot}
    {d : DescriptionSlot} (hd : d ∈ slots) :
    d.value.type.name ++ " " ++ d.name ++ ";" ∈ Code.textLines (descriptionStruct stage slots) := by
  have hmembers : ∀ slots : List DescriptionSlot,
      Code.textLines (slots.map fun s => .line (s.value.type.name ++ " " ++ s.name ++ ";")) =
        slots.map fun s => s.value.type.name ++ " " ++ s.name ++ ";" := by
    intro slots
    induction slots with
    | nil => rfl
    | cons s rest ih => rw [List.map_cons, Code.textLines, ih]; rfl
  simp only [descriptionStruct, Code.textLines, Code.textLine, hmembers, List.mem_append]
  exact Or.inr (Or.inl (Or.inl (Or.inr (List.mem_map_of_mem hd))))

/-- What a slot of the master node is given comes from a node of the stage, or is its default. -/
theorem hasType_masterSlot (hids : (e.graph.connections.map Connection.id).Nodup)
    (hports : ∀ c ∈ e.graph.connections, e.graph.LeavesDeclaredOutput c)
    (hout : e.graph.operation output = .ok out) (hmaster : out.isMaster = true) {stage : Stage}
    (h : liveNodes e.graph output (followedSlots out p stage) e.keywords count = .ok nodes)
    {s : MasterSlot} (hs : s ∈ MasterSlot.masked stage (p.slots stage)) {v : Typed}
    (hv : e.graph.inputValue out.node s.id s.type s.default = .ok v) :
    v.expr.HasType (e.typeContext properties nodes) s.type := by
  obtain ⟨hslot, -⟩ := MasterSlot.mem_ofStage_of_mem_masked hs
  refine Operation.hasType_inputValue hv ?_ (MasterSlot.hasType_default hslot)
  intro c source t hc hsource ht
  obtain ⟨hnode, hsocket⟩ := Graph.target_of_incomingAt? hc
  have htarget : c.target = ⟨output, s.id⟩ := by
    rw [← Graph.id_of_operation hout, ← hnode, ← hsocket]
  obtain ⟨m, hm, hid, -⟩ := exists_source_of_mem_masked hids hout hmaster h hs
    (Graph.mem_of_incomingAt? hc) htarget
  exact locals_of_source hports hc hm hid hsource ht

/-- The main output of a node that is previewed is known after the node, if code declares it. -/
theorem hasType_primaryOutput (hout : e.graph.operation n.id = .ok out) (hn : n ∈ nodes)
    (hprimary : out.primaryOutput ∈ out.declaredOutputs) {t : ValueType}
    (ht : e.graph.outputType out out.primaryOutput = .ok t) :
    (Expr.variable (out.node.variable out.primaryOutput)).HasType
      (e.typeContext properties nodes) t :=
  .variable ⟨n, hn, out, hout, out.primaryOutput, hprimary, rfl, ht⟩

/-- The value of a slot has the type of the slot.  A node that is previewed has one slot, for its
main output, which its code has to declare. -/
theorem hasType_descriptionSlots (hids : (e.graph.connections.map Connection.id).Nodup)
    (hports : ∀ c ∈ e.graph.connections, e.graph.LeavesDeclaredOutput c)
    (h : passFields e.graph output p e.mode e.keywords = .ok r)
    (hout : e.graph.operation output = .ok out)
    (hprimary : out.isMaster = false → out.primaryOutput ∈ out.declaredOutputs)
    {slots : List DescriptionSlot} (hslots : descriptionSlots e out p = .ok slots) :
    ∀ d ∈ slots, d.value.expr.HasType (e.typeContext properties (r.stage e.stage).nodes)
      d.value.type := by
  intro d hd
  obtain ⟨hmaster, s, hs, v, hv, rfl⟩ | ⟨hmaster, hstage, t, ht, rfl⟩ :=
    descriptionSlots_spec hslots hd
  · obtain ⟨out', hout', -, hnodes⟩ := passFields_liveNodes h e.stage
    obtain rfl : out = out' := Except.ok.inj (hout.symm.trans hout')
    obtain hnodes | ⟨-, hempty⟩ := hnodes
    · rw [show v.type = s.type from Graph.type_inputValue hv]
      exact hasType_masterSlot hids hports hout hmaster hnodes hs hv
    · -- a stage without nodes has no slots either
      rw [hempty hmaster] at hs
      exact absurd hs List.not_mem_nil
  · rw [Typed.type_coerce, hstage]
    obtain ⟨n, hn, rfl⟩ := exists_output_of_pixel h
    have hdeclared := hprimary hmaster
    exact Expr.HasType.coerce (v := ⟨t, _⟩) (hasType_primaryOutput hout hn hdeclared ht) .float4

/-! ### The code of a stage -/

/-- The statements of a node are typed, if the nodes that name one property agree on its type. -/
theorem isTyped_statements (hids : (e.graph.connections.map Connection.id).Nodup)
    (hports : ∀ c ∈ e.graph.connections, e.graph.LeavesDeclaredOutput c)
    (hwalk : e.graph.evaluationOrder output = .ok ids)
    (hproperties : collectProperties e.graph e.mode ids = .ok properties)
    (hagree : AgreeOnTypes (e.graph.propertiesBehind e.mode ids))
    (h : passFields e.graph output p e.mode e.keywords = .ok r)
    (hsplit : (r.stage e.stage).nodes = pre ++ n :: post) (ho : e.graph.operation n.id = .ok o)
    {statements : List Statement} (hstatements : o.statements e = .ok statements) :
    ∀ s ∈ statements, s.IsTyped (e.typeContext properties (pre ++ [n])) := by
  by_cases hkind : o.kind = .master
  · -- the master node has no statements
    unfold Operation.statements at hstatements
    rw [hkind] at hstatements
    rw [← Except.ok.inj hstatements]
    exact List.forall_mem_nil _
  · obtain ⟨out, hout, -, hnodes⟩ := passFields_liveNodes h e.stage
    obtain hnodes | ⟨hnil, -⟩ := hnodes
    · exact (Operation.computes_of_statements hstatements).isTyped
        (Operation.isServedBy_typeContext hids hports hwalk hproperties hagree hout hnodes hsplit
          ho hkind)
    · rw [hnil] at hsplit
      exact absurd hsplit (by simp)

/-- **The code of a stage is typed**, in a graph whose connections come from outputs that code
declares.  The variables of a node are its outputs, each declared with its type.  If the nodes
that name one property agree on its type, all parts of the statements of a node have exactly the
types of their places, with the variables of the nodes before it and of its own, and with the
properties of the shader.  The value of a slot has the type of its member of the description, for
a node that is previewed if its main output is declared.  Where different outputs have different
variables, an expression has no second type.  And each helper function that a live node of either
stage calls is defined once, with parameters of the type that the call was checked for. -/
theorem isTyped_of_passFields (hids : (e.graph.connections.map Connection.id).Nodup)
    (hports : ∀ c ∈ e.graph.connections, e.graph.LeavesDeclaredOutput c)
    (hwalk : e.graph.evaluationOrder output = .ok ids)
    (hproperties : collectProperties e.graph e.mode ids = .ok properties)
    (h : passFields e.graph output p e.mode e.keywords = .ok r)
    (hout : e.graph.operation output = .ok out) :
    (∀ pre n post, (r.stage e.stage).nodes = pre ++ n :: post → ∀ o statements,
      e.graph.operation n.id = .ok o → o.statements e = .ok statements →
        List.Forall₂ (o.DeclaresOutput e) (statements.flatMap Statement.declarations)
            o.declaredOutputs ∧
          (AgreeOnTypes (e.graph.propertiesBehind e.mode ids) →
            ∀ s ∈ statements, s.IsTyped (e.typeContext properties (pre ++ [n])))) ∧
      (∀ slots, descriptionSlots e out p = .ok slots → ∀ d ∈ slots,
        ((out.isMaster = false → out.primaryOutput ∈ out.declaredOutputs) →
          d.value.expr.HasType (e.typeContext properties (r.stage e.stage).nodes)
            d.value.type) ∧
          d.value.type.name ++ " " ++ d.name ++ ";" ∈
            Code.textLines (descriptionStruct e.stage slots)) ∧
      (∀ nodes, e.graph.HasDistinctVariables nodes → ∀ (x : Expr) t u,
        x.HasType (e.typeContext properties nodes) t →
          x.HasType (e.typeContext properties nodes) u → t = u) ∧
      ∀ helpers, passHelpers e.graph r = .ok helpers → ∀ n ∈ (r.stage e.stage).nodes,
        n.isLive = true → ∀ o statements, e.graph.operation n.id = .ok o →
          o.statements e = .ok statements → ∀ k left right result,
            .call k left right result ∈ statements →
              (Code.textLines (Shading.helpersCode helpers)).count k.signature = 1 ∧
                (helpers.map Helper.name).count k.name = 1 := by
  refine ⟨?_, fun slots hslots d hd => ⟨fun hprimary => ?_, ?_⟩, ?_, ?_⟩
  · intro pre n post hsplit o statements ho hstatements
    exact ⟨(Operation.computes_of_statements hstatements).declarations, fun hagree =>
      isTyped_statements hids hports hwalk hproperties hagree h hsplit ho hstatements⟩
  · exact hasType_descriptionSlots hids hports h hout hprimary hslots d hd
  · exact mem_textLines_descriptionStruct hd
  · intro nodes hvariables x t u ht hu
    exact ht.unique (Evaluation.isFunctional_typeContext hproperties hvariables) hu
  · intro helpers hhelpers n hn hlive o statements ho hstatements k left right result hcall
    have hk := (Operation.computes_of_statements hstatements).helper?_of_call hcall
    exact count_passHelpers hhelpers hn hlive ho hk

/-! ### A sum of a colour and a float -/

/-- A master node whose colour is the sum of a texture and a property. -/
def sumGraph : Graph where
  version := "1"
  metadata := { name := "Sum" }
  nodes := [
    { id := "master", type := "Master", inputs := [{ id := "BaseColor" }] },
    { id := "sum", type := "Add", inputs := [{ id := "A" }, { id := "B" }] },
    { id := "tex", type := "SampleTexture2D" },
    { id := "f", type := "Float", params := [("property", .text "_Strength")] }]
  connections := [
    ⟨"c1", ⟨"sum", "Out"⟩, ⟨"master", "BaseColor"⟩⟩,
    ⟨"c2", ⟨"tex", "RGBA"⟩, ⟨"sum", "A"⟩⟩,
    ⟨"c3", ⟨"f", "Out"⟩, ⟨"sum", "B"⟩⟩]

/-- The call of the sum: the number fills a vector of four. -/
def sumCall : Statement :=
  .call ⟨.add, .float4⟩ (.variable "_SampleTexture2D_tex_RGBA")
    (.lanes (.group (.variable "_Float_f_Out")) [.x, .x, .x, .x]) "_Add_sum_Out"

theorem isTyped_of_passFields_sum :
    let e : Evaluation := ⟨sumGraph, [], .final, .pixel⟩
    ∃ properties r out o statements slots helpers pre n post,
      collectProperties sumGraph .final ["tex", "f", "sum", "master"] = .ok properties ∧
      passFields sumGraph "master" { pixelSlots := ["BaseColor"] } .final [] = .ok r ∧
      sumGraph.operation "master" = .ok out ∧ sumGraph.operation "sum" = .ok o ∧
      o.statements e = .ok statements ∧ r.pixel.nodes = pre ++ n :: post ∧ n.id = "sum" ∧
      sumCall ∈ statements ∧ sumCall.IsTyped (e.typeContext properties (pre ++ [n])) ∧
      (∀ t, (Expr.variable "_Add_sum_Out").HasType (e.typeContext properties (pre ++ [n])) t →
        t = .float4) ∧
      descriptionSlots e out { pixelSlots := ["BaseColor"] } = .ok slots ∧ slots ≠ [] ∧
      (∀ d ∈ slots, d.value.expr.HasType (e.typeContext properties r.pixel.nodes) d.value.type) ∧
      passHelpers sumGraph r = .ok helpers ∧
      (Code.textLines (Shading.helpersCode helpers)).count
        "void Unity_Add_float4(float4 A, float4 B, out float4 Out)" = 1 := by
  intro e
  have hids : (e.graph.connections.map Connection.id).Nodup := by decide
  have hports : ∀ c ∈ e.graph.connections, e.graph.LeavesDeclaredOutput c := by decide +kernel
  have hwalk : e.graph.evaluationOrder "master" = .ok ["tex", "f", "sum", "master"] := by
    decide +kernel
  have hagree : AgreeOnTypes
      (e.graph.propertiesBehind e.mode ["tex", "f", "sum", "master"]) := by decide +kernel
  obtain ⟨properties, hproperties⟩ : ∃ properties, collectProperties e.graph e.mode
      ["tex", "f", "sum", "master"] = .ok properties := Outcome.exists_of_isOk (by decide +kernel)
  obtain ⟨r, hr, hnodes⟩ : ∃ r, passFields sumGraph "master" { pixelSlots := ["BaseColor"] } .final
      [] = .ok r ∧ decide (r.pixel.nodes = [⟨"tex", none⟩, ⟨"f", none⟩] ++ ⟨"sum", none⟩ ::
        [⟨"master", none⟩]) = true := Outcome.exists_of_check (by decide +kernel)
  obtain ⟨helpers, hhelpers⟩ : ∃ helpers, (passFields sumGraph "master"
      { pixelSlots := ["BaseColor"] } .final [] >>= passHelpers sumGraph) = .ok helpers :=
    Outcome.exists_of_isOk (by decide +kernel)
  obtain ⟨r', hr', hhelpers⟩ := Outcome.bind_eq_ok_iff.mp hhelpers
  obtain rfl : r = r' := Except.ok.inj (hr.symm.trans hr')
  obtain ⟨out, hout, hmaster⟩ : ∃ out, sumGraph.operation "master" = .ok out ∧
      out.isMaster = true := Outcome.exists_of_check (by decide +kernel)
  obtain ⟨slots, hslots, hne⟩ : ∃ slots, (sumGraph.operation "master" >>= fun out =>
      descriptionSlots e out { pixelSlots := ["BaseColor"] }) = .ok slots ∧
        decide (slots ≠ []) = true := Outcome.exists_of_check (by decide +kernel)
  obtain ⟨out', hout', hslots⟩ := Outcome.bind_eq_ok_iff.mp hslots
  obtain rfl : out = out' := Except.ok.inj (hout.symm.trans hout')
  obtain ⟨statements, hstatements, hcall⟩ : ∃ statements,
      (sumGraph.operation "sum" >>= fun o => o.statements e) = .ok statements ∧
        decide (sumCall ∈ statements) = true := Outcome.exists_of_check (by decide +kernel)
  obtain ⟨o, ho, hstatements⟩ := Outcome.bind_eq_ok_iff.mp hstatements
  have hsplit : r.pixel.nodes = [⟨"tex", none⟩, ⟨"f", none⟩] ++ ⟨"sum", none⟩ ::
      [⟨"master", none⟩] := of_decide_eq_true hnodes
  have hcall : sumCall ∈ statements := of_decide_eq_true hcall
  have hvariables : sumGraph.HasDistinctVariables
      ([⟨"tex", none⟩, ⟨"f", none⟩] ++ [⟨"sum", none⟩]) := by decide +kernel
  obtain ⟨htyped, hvalues, hunique, hdefined⟩ :=
    isTyped_of_passFields (e := e) hids hports hwalk hproperties hr hout
  have hmem : (⟨"sum", none⟩ : LiveNode) ∈ r.pixel.nodes := by
    rw [hsplit]
    decide
  have hcallTyped := (htyped _ _ _ hsplit o statements ho hstatements).2 hagree sumCall hcall
  refine ⟨properties, r, out, o, statements, slots, helpers, _, _, _, hproperties, hr, hout, ho,
    hstatements, hsplit, rfl, hcall, hcallTyped, fun t ht => ?_, hslots, of_decide_eq_true hne,
      fun d hd => ?_, hhelpers, ?_⟩
  · -- the call gives its result the other type
    exact hunique _ hvariables _ _ _ ht (.variable hcallTyped.2.2)
  · exact (hvalues slots hslots d hd).1 fun hfalse => absurd (hmaster.symm.trans hfalse) (by decide)
  · exact (hdefined helpers hhelpers _ hmem rfl o statements ho hstatements _ _ _ _ hcall).1

/-! ### Names that are not what they seem -/

/-- A sum of a number and a colour that both name one property, and for which the document lists
an output that its code does not have. -/
def misnamedGraph : Graph where
  version := "1"
  metadata := { name := "Misnamed" }
  nodes := [
    { id := "f", type := "Float", params := [("property", .text "_X")] },
    { id := "c", type := "Color", params := [("property", .text "_X")] },
    { id := "sum", type := "Add", inputs := [{ id := "A" }, { id := "B" }],
      outputs := [{ id := "Foo" }] }]
  connections := [
    ⟨"c1", ⟨"f", "Out"⟩, ⟨"sum", "A"⟩⟩,
    ⟨"c2", ⟨"c", "Out"⟩, ⟨"sum", "B"⟩⟩]

/-- **A colour may be read from a property that is declared as a number**, where another node
names that property first.  **The preview of a node may read a variable that is nowhere
declared**, which has no type at all. -/
theorem exists_parts_without_type :
    let e : Evaluation := ⟨misnamedGraph, [], .final, .pixel⟩
    (e.graph.connections.map Connection.id).Nodup ∧
      (∀ c ∈ e.graph.connections, e.graph.LeavesDeclaredOutput c) ∧
      e.graph.evaluationOrder "sum" = .ok ["f", "c", "sum"] ∧
      ∃ properties r, collectProperties e.graph e.mode ["f", "c", "sum"] = .ok properties ∧
        passFields e.graph "sum" {} e.mode e.keywords = .ok r ∧
        (∃ n ∈ (r.stage e.stage).nodes, ∃ o statements s, e.graph.operation n.id = .ok o ∧
          o.statements e = .ok statements ∧ s ∈ statements ∧
            ¬s.IsTyped (e.typeContext properties (r.stage e.stage).nodes)) ∧
        ∃ out slots d, e.graph.operation "sum" = .ok out ∧ descriptionSlots e out {} = .ok slots ∧
          d ∈ slots ∧
            ∀ t, ¬d.value.expr.HasType (e.typeContext properties (r.stage e.stage).nodes) t := by
  intro e
  obtain ⟨properties, hproperties, htypes⟩ : ∃ properties, collectProperties e.graph e.mode
      ["f", "c", "sum"] = .ok properties ∧
        decide (∀ p ∈ properties, p.value.typeName ≠ "float4") = true :=
    Outcome.exists_of_check (by decide +kernel)
  obtain ⟨r, hr, hnodes⟩ : ∃ r, passFields e.graph "sum" {} e.mode e.keywords = .ok r ∧
      decide (r.pixel.nodes = [⟨"f", none⟩, ⟨"c", none⟩, ⟨"sum", none⟩]) = true :=
    Outcome.exists_of_check (by decide +kernel)
  have hnodes : (r.stage e.stage).nodes = [⟨"f", none⟩, ⟨"c", none⟩, ⟨"sum", none⟩] :=
    of_decide_eq_true hnodes
  refine ⟨by decide, by decide +kernel, by decide +kernel, properties, r, hproperties, hr, ?_, ?_⟩
  · -- the colour has four components, its property has one
    obtain ⟨statements, hstatements, hdefine⟩ : ∃ statements,
        (e.graph.operation "c" >>= fun o => o.statements e) = .ok statements ∧
          decide (.define .float4 "_Color_c_Out" (.property "_X") ∈ statements) = true :=
      Outcome.exists_of_check (by decide +kernel)
    obtain ⟨o, ho, hstatements⟩ := Outcome.bind_eq_ok_iff.mp hstatements
    refine ⟨⟨"c", none⟩, by rw [hnodes]; decide, o, statements, _, ho, hstatements,
      of_decide_eq_true hdefine, ?_⟩
    rintro ⟨-, hvalue⟩
    cases hvalue with
    | property hdeclared =>
      obtain ⟨p, hp, -, htype⟩ := hdeclared
      exact of_decide_eq_true htypes p hp htype
  · obtain ⟨slots, hslots, hd⟩ : ∃ slots,
        (e.graph.operation "sum" >>= fun out => descriptionSlots e out {}) = .ok slots ∧
          decide ((⟨"Out", ⟨.float4, .variable "_Add_sum_Foo"⟩⟩ : DescriptionSlot) ∈ slots) =
            true := Outcome.exists_of_check (by decide +kernel)
    obtain ⟨out, hout, hslots⟩ := Outcome.bind_eq_ok_iff.mp hslots
    refine ⟨out, slots, _, hout, hslots, of_decide_eq_true hd, fun t ht => ?_⟩
    cases ht with
    | «variable» hlocal =>
      obtain ⟨n, hn, o, ho, socket, hsocket, hname, -⟩ := hlocal
      have hvariables : ∀ n ∈ (r.stage e.stage).nodes, ∃ o, e.graph.operation n.id = .ok o ∧
          decide (∀ s ∈ o.declaredOutputs, "_Add_sum_Foo" ≠ o.node.variable s) = true := by
        rw [hnodes]
        simp only [List.forall_mem_cons]
        exact ⟨Outcome.exists_of_check (by decide +kernel),
          Outcome.exists_of_check (by decide +kernel),
          Outcome.exists_of_check (by decide +kernel), List.forall_mem_nil _⟩
      obtain ⟨o', ho', hnames⟩ := hvariables n hn
      obtain rfl : o = o' := Except.ok.inj (ho.symm.trans ho')
      exact of_decide_eq_true hnames socket hsocket hname

end MaterialShader
