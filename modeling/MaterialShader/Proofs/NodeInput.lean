import MaterialShader.Proofs.NodeStatement
import MaterialShader.Stage.Description

/-!
# What the code of nodes reads

A node asks for inputs of its stage by its requirements, and its code reads inputs by their
names.  The two are written down apart, and both depend on what is connected: a default is read
only where nothing is.  Here they are brought together, so nothing is read that was not asked
for.

## Main definitions

* `Shading.Expr.inputs`, `Shading.Statement.inputs` — the inputs that code reads.

## Main results

* `Operation.Computes.mem_requirements` — the statements of a node read what it asks for.
* `mem_requirements_of_masterSlot` — so do the values of the slots of a master node.
-/

namespace MaterialShader

open Shading (ValueType Typed Expr Statement)

/-! ### The inputs that code reads -/

namespace Shading

/-- The inputs that an expression reads. -/
def Expr.inputs : Expr → List String
  | .variable _ => []
  | .property _ => []
  | .input member => [member]
  | .constant _ => []
  | .group e => e.inputs
  | .lanes e _ => e.inputs
  | .channel e _ => e.inputs
  | .pad _ e _ => e.inputs
  | .quotient a b => a.inputs ++ b.inputs
  | .sample _ uv _ => uv.inputs
  | .scene _ uv => uv.inputs

/-- The inputs that a statement reads. -/
def Statement.inputs : Statement → List String
  | .define _ _ value => value.inputs
  | .declare _ _ => []
  | .call _ left right _ => left.inputs ++ right.inputs
  | .select _ _ arms => arms.flatMap fun a => a.value.inputs

theorem Expr.inputs_coerce (v : Typed) (target : ValueType) :
    (v.coerce target).expr.inputs = v.expr.inputs := by
  unfold Typed.coerce
  split
  · rfl
  · split
    · rfl
    · split <;> rfl

end Shading

theorem inputs_meshUv (channel : Nat) : (meshUv channel).inputs = [Requirements.uvInput channel] :=
  rfl

theorem inputs_screenUv : screenUv.inputs = ["ScreenPosition", "ScreenPosition"] := rfl

/-! ### The inputs that are asked for -/

namespace Requirements

variable {r : Requirements}

theorem positionInput_mem {s : Space} (h : r.position = .only s) :
    positionInput s ∈ r.inputs := by
  cases s <;> simp [inputs, h, Spaces.only, Spaces.toList]

theorem normalInput_mem {s : Space} (h : r.normal = .only s) : normalInput s ∈ r.inputs := by
  cases s <;> simp [inputs, h, Spaces.only, Spaces.toList]

theorem uvInput_mem {channel : Nat} (h : channel ∈ r.uvChannels) : uvInput channel ∈ r.inputs := by
  simp only [inputs, List.mem_append]
  exact Or.inl (Or.inl (Or.inl (Or.inr (List.mem_map_of_mem h))))

theorem vertexColor_mem (h : r.vertexColor = true) : "VertexColor" ∈ r.inputs := by
  simp [inputs, h]

theorem screenPosition_mem (h : r.screenPosition = true) : "ScreenPosition" ∈ r.inputs := by
  simp [inputs, h]

theorem time_mem (h : r.time = true) : "TimeParameters" ∈ r.inputs := by
  simp [inputs, h]

end Requirements

/-! ### What is read was asked for -/

/-- The value of an input reads an input of the stage only by its default, where nothing is
connected. -/
theorem Graph.isUnconnected_of_mem_inputs {g : Graph} {n : Node} {socket m : String}
    {type : ValueType} {default : Expr} {v : Typed}
    (h : g.inputValue n socket type default = .ok v) (hm : m ∈ v.expr.inputs) :
    g.isUnconnected n socket = true ∧ m ∈ default.inputs := by
  obtain ⟨hnone, rfl⟩ | ⟨c, source, t, -, -, -, rfl⟩ := inputValue_spec h
  · exact ⟨by rw [isUnconnected, hnone]; rfl, hm⟩
  · rw [Expr.inputs_coerce] at hm
    exact absurd hm List.not_mem_nil

namespace Operation

variable {e : Evaluation} {o : Operation} {statements : List Statement} {m : String}

/-- The input that a geometry node passes on is asked for. -/
theorem mem_requirements_of_geometryInput? {g : Graph} {stage : Stage} {type : ValueType}
    (h : o.geometryInput? = some (type, m)) : m ∈ (o.requirements g stage).inputs := by
  unfold geometryInput? at h
  unfold requirements
  cases hk : o.kind with
  | uv =>
    rw [hk] at h
    obtain ⟨-, rfl⟩ := Prod.mk.inj (Option.some.inj h)
    exact Requirements.uvInput_mem (List.mem_singleton_self _)
  | position =>
    rw [hk] at h
    obtain ⟨-, rfl⟩ := Prod.mk.inj (Option.some.inj h)
    exact Requirements.positionInput_mem rfl
  | normal =>
    rw [hk] at h
    obtain ⟨-, rfl⟩ := Prod.mk.inj (Option.some.inj h)
    exact Requirements.normalInput_mem rfl
  | vertexColor =>
    rw [hk] at h
    obtain ⟨-, rfl⟩ := Prod.mk.inj (Option.some.inj h)
    exact Requirements.vertexColor_mem rfl
  | _ =>
    rw [hk] at h
    exact absurd h (by rintro ⟨⟩)

theorem uvInput_mem_requirements {g : Graph} {stage : Stage} (hkind : o.kind = .sampleTexture)
    (hunconnected : g.isUnconnected o.node "UV" = true) :
    Requirements.uvInput o.node.uvChannel ∈ (o.requirements g stage).inputs := by
  have hchannels : (o.requirements g stage).uvChannels =
      if g.isUnconnected o.node "UV" then [o.node.uvChannel] else [] := by
    unfold requirements
    rw [hkind]
  refine Requirements.uvInput_mem ?_
  rw [hchannels, if_pos hunconnected]
  exact List.mem_singleton_self _

/-- The coordinate of the screen is asked for where nothing is connected. -/
theorem screenPosition_mem_requirements {g : Graph} {stage : Stage} {buffer : Shading.SceneBuffer}
    {type : ValueType} (h : o.sceneBuffer? = some (buffer, type))
    (hunconnected : g.isUnconnected o.node "UV" = true) :
    "ScreenPosition" ∈ (o.requirements g stage).inputs := by
  unfold sceneBuffer? at h
  unfold requirements
  cases hk : o.kind with
  | sceneDepth => exact Requirements.screenPosition_mem hunconnected
  | sceneColor => exact Requirements.screenPosition_mem hunconnected
  | _ =>
    rw [hk] at h
    exact absurd h (by rintro ⟨⟩)

/-- **The statements of a node read what the node asks for.** -/
theorem Computes.mem_requirements (h : o.Computes e statements) :
    ∀ s ∈ statements, ∀ m ∈ s.inputs, m ∈ (o.requirements e.graph e.stage).inputs := by
  intro s hs m hm
  cases h with
  | master hkind => exact absurd hs List.not_mem_nil
  | constant hvalue =>
    rw [List.mem_singleton.mp hs] at hm
    -- neither a property nor a constant reads an input
    refine absurd (show m ∈ Expr.inputs _ from hm) ?_
    rename_i value
    cases o.backingProperty? e.mode with
    | some p => exact List.not_mem_nil
    | none => cases value <;> exact List.not_mem_nil
  | time hkind =>
    obtain ⟨p, -, rfl⟩ := List.mem_map.mp hs
    rw [List.mem_singleton.mp hm]
    unfold requirements
    rw [hkind]
    exact Requirements.time_mem rfl
  | geometry hinput =>
    rw [List.mem_singleton.mp hs] at hm
    rw [List.mem_singleton.mp hm]
    exact mem_requirements_of_geometryInput? hinput
  | operator hop htype hleft hright =>
    rcases List.mem_cons.mp hs with rfl | hs
    · exact absurd hm List.not_mem_nil
    · rw [List.mem_singleton.mp hs] at hm
      rcases List.mem_append.mp hm with hm | hm
      · exact absurd (Graph.isUnconnected_of_mem_inputs hleft hm).2 List.not_mem_nil
      · exact absurd (Graph.isUnconnected_of_mem_inputs hright hm).2 List.not_mem_nil
  | texture hkind huv =>
    rcases List.mem_cons.mp hs with rfl | hs
    · obtain ⟨hunconnected, hm⟩ := Graph.isUnconnected_of_mem_inputs huv hm
      rw [inputs_meshUv, List.mem_singleton] at hm
      rw [hm]
      exact uvInput_mem_requirements hkind hunconnected
    · -- the channels are taken from the colour
      obtain ⟨c, -, rfl⟩ := List.mem_map.mp hs
      exact absurd hm List.not_mem_nil
  | scene hbuffer huv =>
    rw [List.mem_singleton.mp hs] at hm
    obtain ⟨hunconnected, hm⟩ := Graph.isUnconnected_of_mem_inputs huv hm
    obtain rfl : m = "ScreenPosition" := by simpa [inputs_screenUv] using hm
    exact screenPosition_mem_requirements hbuffer hunconnected
  | keyword hkind hk htype hvalue =>
    rw [List.mem_singleton.mp hs] at hm
    obtain ⟨a, ha, hm⟩ := List.mem_flatMap.mp hm
    obtain ⟨b, hb, rfl⟩ := List.mem_map.mp ha
    obtain ⟨v, hv, hexpr⟩ := hvalue b hb
    rw [hexpr] at hm
    exact absurd (Graph.isUnconnected_of_mem_inputs hv hm).2 List.not_mem_nil

end Operation

/-! ### The members of a description -/

/-- A slot of the pixel stage has a constant for its default. -/
theorem MasterSlot.inputs_default_ofPixel {s : MasterSlot} (h : s ∈ MasterSlot.ofPixel) :
    s.default.inputs = [] := by
  revert s
  decide

theorem MasterSlot.mem_ofStage_of_mem_masked {stage : Stage} {mask : List String} {s : MasterSlot}
    (h : s ∈ MasterSlot.masked stage mask) : s ∈ MasterSlot.ofStage stage ∧ s.id ∈ mask := by
  obtain ⟨id, hid, hfind⟩ := List.mem_filterMap.mp h
  have heq : s.id = id := by simpa using List.find?_some hfind
  exact ⟨List.mem_of_find?_eq_some hfind, heq ▸ hid⟩

/-- A member of a description is a slot of the master node with its value, or the main output of
a node that is previewed. -/
theorem descriptionSlots_spec {e : Evaluation} {out : Operation} {p : Pass}
    {slots : List DescriptionSlot} {d : DescriptionSlot}
    (h : descriptionSlots e out p = .ok slots) (hd : d ∈ slots) :
    (out.isMaster = true ∧ ∃ s ∈ MasterSlot.masked e.stage (p.slots e.stage), ∃ v,
      e.graph.inputValue out.node s.id s.type s.default = .ok v ∧ d = ⟨s.id, v⟩) ∨
    (out.isMaster = false ∧ e.stage = .pixel ∧ ∃ t,
      e.graph.outputType out out.primaryOutput = .ok t ∧
        d = ⟨"Out", Typed.coerce ⟨t, .variable (out.node.variable out.primaryOutput)⟩ .float4⟩) := by
  unfold descriptionSlots at h
  by_cases hmaster : out.isMaster = true
  · rw [if_pos hmaster] at h
    obtain ⟨s, hs, hvalue⟩ := Outcome.exists_of_mem_mapM h hd
    obtain ⟨v, hv, hvalue⟩ := Outcome.bind_eq_ok_iff.mp hvalue
    exact Or.inl ⟨hmaster, s, hs, v, hv, (Outcome.pure_eq_ok_iff.mp hvalue).symm⟩
  · rw [if_neg hmaster] at h
    cases hstage : e.stage with
    | vertex =>
      rw [hstage] at h
      rw [← Except.ok.inj h] at hd
      exact absurd hd List.not_mem_nil
    | pixel =>
      rw [hstage] at h
      obtain ⟨t, ht, h⟩ := Outcome.bind_eq_ok_iff.mp h
      rw [← Outcome.pure_eq_ok_iff.mp h] at hd
      exact Or.inr ⟨Bool.eq_false_iff.mpr hmaster, rfl, t, ht, List.mem_singleton.mp hd⟩

/-- **The value of a slot of the master node** reads what the master node asks for. -/
theorem mem_requirements_of_masterSlot {g : Graph} {o : Operation} {stage : Stage} {s : MasterSlot}
    {v : Typed} (hmaster : o.kind = .master) (hs : s ∈ MasterSlot.ofStage stage)
    (hv : g.inputValue o.node s.id s.type s.default = .ok v) :
    ∀ m ∈ v.expr.inputs, m ∈ (o.requirements g stage).inputs := by
  intro m hm
  obtain ⟨hunconnected, hm⟩ := Graph.isUnconnected_of_mem_inputs hv hm
  cases stage with
  | pixel =>
    rw [MasterSlot.inputs_default_ofPixel hs] at hm
    exact absurd hm List.not_mem_nil
  | vertex =>
    unfold Operation.requirements
    rw [hmaster]
    rcases List.mem_cons.mp hs with rfl | hs
    · rw [List.mem_singleton.mp hm]
      exact Requirements.positionInput_mem (if_pos hunconnected)
    · rw [List.mem_singleton.mp hs] at hunconnected hm
      rw [List.mem_singleton.mp hm]
      exact Requirements.normalInput_mem (if_pos hunconnected)

end MaterialShader
