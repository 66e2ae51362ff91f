import MaterialShader.Proofs.ExprType

/-!
# Types of the code of nodes

The type of an output is worked out anew wherever it is needed: where its variable is declared,
where another node reads it, where a helper function is chosen for it.  All of them ask for the
same output, so what is left to show is that the variables a node declares are its outputs, and
that every place is given a value converted to its type.

## Main definitions

* `Operation.declaredOutputs` — the outputs that the code of a node declares.
* `Operation.IsServedBy` — a context knows all names that the code of a node uses.

## Main results

* `Operation.Computes.declarations` — the variables of a node have the types of its outputs.
* `Operation.Computes.isTyped` — the statements of a node are typed.
-/

namespace MaterialShader

open Shading (ValueType Typed Expr Statement TypeContext inputType?)

/-! ### The types of outputs -/

namespace Operation

/-- The outputs that the code of a node declares variables for. -/
def declaredOutputs (o : Operation) : List String :=
  match o.kind with
  | .master => []
  | .time => ["Time", "SineTime", "CosineTime"]
  | .sampleTexture => ["RGBA", "R", "G", "B", "A"]
  | _ => ["Out"]

end Operation

theorem Graph.outputType_of_fixedType? {g : Graph} {o : Operation} {socket : String}
    {t : ValueType} (h : o.fixedType? socket = some t) : g.outputType o socket = .ok t := by
  rw [outputType, outputTypeWithin, h]

namespace Operation

variable {e : Evaluation} {o : Operation} {statements : List Statement} {Γ : TypeContext}

/-- A constant has one output, of its own type. -/
theorem constant?_spec {value : PropertyValue} (h : o.constant? = some value) :
    (constantType value).name = value.typeName ∧ o.declaredOutputs = ["Out"] ∧
      o.fixedType? "Out" = some (constantType value) := by
  unfold declaredOutputs fixedType?
  unfold constant? at h
  cases hk : o.kind with
  | float | color | vector =>
    rw [hk] at h
    rw [← Option.some.inj h]
    exact ⟨rfl, rfl, rfl⟩
  | _ =>
    rw [hk] at h
    exact absurd h (by rintro ⟨⟩)

theorem hasType_vector {p : Params} {key : String} {fallback : List Single}
    (h : fallback.length = 4) : (Expr.constant (p.vector key fallback)).HasType Γ .float4 := by
  refine .constant ?_
  unfold Params.vector
  split
  · rw [Params.length_overlay, h]
    rfl
  · exact h

theorem hasType_constantExpr {value : PropertyValue} (h : o.constant? = some value) :
    (constantExpr value).HasType Γ (constantType value) := by
  unfold constant? at h
  split at h
  · rw [← Option.some.inj h]
    exact .constant rfl
  · rw [← Option.some.inj h]
    exact hasType_vector rfl
  · rw [← Option.some.inj h]
    exact hasType_vector rfl
  · exact absurd h (by rintro ⟨⟩)

/-- The property behind a constant has its value. -/
theorem value_backingProperty? {mode : Mode} {p : Property}
    (h : o.backingProperty? mode = some p) : o.constant? = some p.value := by
  obtain ⟨value, hvalue, hp⟩ := Option.bind_eq_some_iff.mp h
  rw [hvalue]
  split at hp
  · rw [← Option.some.inj hp]
    rfl
  · split at hp
    · rw [← Option.some.inj hp]
      rfl
    · exact absurd hp (by rintro ⟨⟩)

/-- The input that a geometry node passes on has the type of its one output. -/
theorem geometryInput?_spec {type : ValueType} {member : String}
    (h : o.geometryInput? = some (type, member)) :
    inputType? member = some type ∧ o.declaredOutputs = ["Out"] ∧
      o.fixedType? "Out" = some type := by
  have huv : ∀ channel ≤ 3, inputType? (Requirements.uvInput channel) = some .float4 := by decide
  have hposition : ∀ s, inputType? (Requirements.positionInput s) = some .float3 := by
    intro s
    cases s <;> decide
  have hnormal : ∀ s, inputType? (Requirements.normalInput s) = some .float3 := by
    intro s
    cases s <;> decide
  unfold declaredOutputs fixedType?
  unfold geometryInput? at h
  cases hk : o.kind with
  | uv =>
    rw [hk] at h
    obtain ⟨rfl, rfl⟩ := Prod.mk.inj (Option.some.inj h)
    exact ⟨huv _ o.node.uvChannel_le, rfl, rfl⟩
  | position =>
    rw [hk] at h
    obtain ⟨rfl, rfl⟩ := Prod.mk.inj (Option.some.inj h)
    exact ⟨hposition _, rfl, rfl⟩
  | normal =>
    rw [hk] at h
    obtain ⟨rfl, rfl⟩ := Prod.mk.inj (Option.some.inj h)
    exact ⟨hnormal _, rfl, rfl⟩
  | vertexColor =>
    rw [hk] at h
    obtain ⟨rfl, rfl⟩ := Prod.mk.inj (Option.some.inj h)
    exact ⟨by decide, rfl, rfl⟩
  | _ =>
    rw [hk] at h
    exact absurd h (by rintro ⟨⟩)

theorem sceneBuffer?_spec {buffer : Shading.SceneBuffer} {type : ValueType}
    (h : o.sceneBuffer? = some (buffer, type)) :
    buffer.type = type ∧ o.declaredOutputs = ["Out"] ∧ o.fixedType? "Out" = some type := by
  unfold declaredOutputs fixedType?
  unfold sceneBuffer? at h
  cases hk : o.kind with
  | sceneDepth | sceneColor =>
    rw [hk] at h
    obtain ⟨rfl, rfl⟩ := Prod.mk.inj (Option.some.inj h)
    exact ⟨rfl, rfl, rfl⟩
  | _ =>
    rw [hk] at h
    exact absurd h (by rintro ⟨⟩)

theorem declaredOutputs_of_operator? {op : Shading.Operator} (h : o.operator? = some op) :
    o.declaredOutputs = ["Out"] := by
  unfold declaredOutputs
  unfold operator? at h
  split at h
  · next hk => rw [hk]
  · next hk => rw [hk]
  · exact absurd h (by rintro ⟨⟩)

/-! ### Declarations -/

/-- A declaration is that of an output: it has its variable and its type. -/
def DeclaresOutput (e : Evaluation) (o : Operation) (d : String × ValueType) (socket : String) :
    Prop := d.1 = o.node.variable socket ∧ e.graph.outputType o socket = .ok d.2

/-- **The variables that a node declares** are its outputs one by one, each with its type. -/
theorem Computes.declarations (h : o.Computes e statements) :
    List.Forall₂ (o.DeclaresOutput e) (statements.flatMap Statement.declarations)
      o.declaredOutputs := by
  have hfixed : ∀ {socket t}, o.fixedType? socket = some t →
      o.DeclaresOutput e (o.node.variable socket, t) socket :=
    fun h => ⟨rfl, Graph.outputType_of_fixedType? h⟩
  cases h with
  | master hkind =>
    rw [declaredOutputs, hkind]
    exact .nil
  | constant hvalue =>
    obtain ⟨-, houtputs, htype⟩ := constant?_spec hvalue
    rw [houtputs]
    exact .cons (hfixed htype) .nil
  | time hkind =>
    have htype : ∀ socket, o.fixedType? socket = some .float := fun socket => by
      rw [fixedType?, hkind]
    rw [declaredOutputs, hkind]
    exact .cons (hfixed (htype _)) (.cons (hfixed (htype _)) (.cons (hfixed (htype _)) .nil))
  | geometry hinput =>
    obtain ⟨-, houtputs, htype⟩ := geometryInput?_spec hinput
    rw [houtputs]
    exact .cons (hfixed htype) .nil
  | operator hop htype hleft hright =>
    rw [declaredOutputs_of_operator? hop]
    exact .cons ⟨rfl, htype⟩ .nil
  | texture hkind huv =>
    have htype : ∀ socket, o.fixedType? socket = some (textureOutputType socket) :=
      fun socket => by rw [fixedType?, hkind]
    rw [declaredOutputs, hkind]
    exact .cons (hfixed (htype "RGBA")) (.cons (hfixed (htype "R")) (.cons (hfixed (htype "G"))
      (.cons (hfixed (htype "B")) (.cons (hfixed (htype "A")) .nil))))
  | scene hbuffer huv =>
    obtain ⟨-, houtputs, htype⟩ := sceneBuffer?_spec hbuffer
    rw [houtputs]
    exact .cons (hfixed htype) .nil
  | keyword hkind hk htype hvalue =>
    rw [declaredOutputs, hkind]
    exact .cons ⟨rfl, htype⟩ .nil

/-! ### Typed statements -/

/-- A context knows all names that the code of a node uses: its own variables, the property
that it is read from, and the variables of the outputs that are connected to it. -/
structure IsServedBy (e : Evaluation) (o : Operation) (Γ : TypeContext) : Prop where
  own : ∀ socket ∈ o.declaredOutputs, ∀ t, e.graph.outputType o socket = .ok t →
    Γ.locals (o.node.variable socket) t
  property : ∀ p t, o.backingProperty? e.mode = some p → t.name = p.value.typeName →
    Γ.properties p.referenceName t
  source : ∀ socket c source t, e.graph.incomingAt? o.node.id socket = some c →
    e.graph.operation c.source.node = .ok source →
    e.graph.outputType source c.source.socket = .ok t →
    Γ.locals (source.node.variable c.source.socket) t

/-- The value of an input has the type it was asked for, if the context knows what is connected
and the default has that type. -/
theorem hasType_inputValue {g : Graph} {n : Node} {socket : String} {type : ValueType}
    {default : Expr} {v : Typed} (h : g.inputValue n socket type default = .ok v)
    (hsource : ∀ c source t, g.incomingAt? n.id socket = some c →
      g.operation c.source.node = .ok source → g.outputType source c.source.socket = .ok t →
      Γ.locals (source.node.variable c.source.socket) t)
    (hdefault : default.HasType Γ type) : v.expr.HasType Γ type := by
  obtain ⟨-, rfl⟩ | ⟨c, source, t, hc, hoperation, ht, rfl⟩ := Graph.inputValue_spec h
  · exact hdefault
  · have hvariable : (Expr.variable (source.node.variable c.source.socket)).HasType Γ t :=
      .variable (hsource c source t hc hoperation ht)
    exact Expr.HasType.coerce (v := ⟨t, _⟩) hvariable type

theorem hasType_replicate {type : ValueType} {value : Single} :
    (Expr.constant (List.replicate type.width value)).HasType Γ type :=
  .constant List.length_replicate

/-- The texture coordinate of the mesh is cut to its first two components. -/
theorem hasType_meshUv {channel : Nat} (h : channel ≤ 3) : (meshUv channel).HasType Γ .float2 := by
  have hinput : inputType? (Requirements.uvInput channel) = some .float4 := by
    revert channel
    decide
  exact .lanes (.input hinput) (by decide) rfl

theorem hasType_screenUv : screenUv.HasType Γ .float2 := by
  have hposition : (Expr.input "ScreenPosition").HasType Γ .float4 := .input (by decide)
  exact .group (.quotient (.lanes hposition (by decide) rfl) (.lanes hposition (by decide) rfl))

/-- **The statements of a node are typed** in a context that knows the names they use. -/
theorem Computes.isTyped (h : o.Computes e statements) (hΓ : o.IsServedBy e Γ) :
    ∀ s ∈ statements, s.IsTyped Γ := by
  have hown : ∀ {socket t}, socket ∈ o.declaredOutputs → o.fixedType? socket = some t →
      Γ.locals (o.node.variable socket) t :=
    fun hsocket ht => hΓ.own _ hsocket _ (Graph.outputType_of_fixedType? ht)
  have hinput : ∀ {socket type default v},
      e.graph.inputValue o.node socket type default = .ok v → default.HasType Γ type →
      v.expr.HasType Γ type :=
    fun hv hdefault => hasType_inputValue hv (hΓ.source _) hdefault
  cases h with
  | master hkind => exact List.forall_mem_nil _
  | @constant value hvalue =>
    obtain ⟨hname, houtputs, htype⟩ := constant?_spec hvalue
    refine List.forall_mem_singleton.mpr ⟨hown (houtputs ▸ List.mem_singleton_self _) htype, ?_⟩
    cases hproperty : o.backingProperty? e.mode with
    | none => exact hasType_constantExpr hvalue
    | some p =>
      -- the property is declared with the value of the constant
      obtain rfl := Option.some.inj (hvalue.symm.trans (value_backingProperty? hproperty))
      exact .property (hΓ.property p _ hproperty hname)
  | time hkind =>
    intro s hs
    obtain ⟨p, hp, rfl⟩ := List.mem_map.mp hs
    have houtput : p.1 ∈ o.declaredOutputs := by
      rw [declaredOutputs, hkind]
      exact List.mem_map_of_mem hp
    have hplace : ∀ p ∈ timeOutputs, p.2.place < ValueType.float3.width := by decide
    have htime : (Expr.input "TimeParameters").HasType Γ .float3 := .input (by decide)
    refine ⟨hown houtput (by rw [fixedType?, hkind]), ?_⟩
    exact .lanes htime (List.forall_mem_singleton.mpr (hplace p hp)) rfl
  | geometry hgeometry =>
    obtain ⟨hmember, houtputs, htype⟩ := geometryInput?_spec hgeometry
    exact List.forall_mem_singleton.mpr
      ⟨hown (houtputs ▸ List.mem_singleton_self _) htype, .input hmember⟩
  | operator hop htype hleft hright =>
    have hout := hΓ.own "Out" (declaredOutputs_of_operator? hop ▸ List.mem_singleton_self _) _ htype
    refine List.forall_mem_cons.mpr ⟨hout, List.forall_mem_singleton.mpr ?_⟩
    exact ⟨hinput hleft hasType_replicate, hinput hright hasType_replicate, hout⟩
  | texture hkind huv =>
    have houtputs : o.declaredOutputs = ["RGBA", "R", "G", "B", "A"] := by
      rw [declaredOutputs, hkind]
    have htype : ∀ socket, o.fixedType? socket = some (textureOutputType socket) :=
      fun socket => by rw [fixedType?, hkind]
    have hcolor : Γ.locals (o.node.variable "RGBA") .float4 :=
      hown (houtputs ▸ List.mem_cons_self) (htype _)
    refine List.forall_mem_cons.mpr ⟨⟨hcolor, ?_⟩, fun s hs => ?_⟩
    · exact .sample (hinput huv (hasType_meshUv o.node.uvChannel_le))
    · obtain ⟨c, -, rfl⟩ := List.mem_map.mp hs
      have houtput : channelSocket c ∈ o.declaredOutputs ∧
          textureOutputType (channelSocket c) = .float := by
        rw [houtputs]
        cases c <;> decide
      have hplace : c.place < 4 := by cases c <;> decide
      refine ⟨?_, .channel (.variable hcolor) hplace⟩
      rw [← houtput.2]
      exact hown houtput.1 (htype _)
  | scene hbuffer huv =>
    obtain ⟨rfl, houtputs, htype⟩ := sceneBuffer?_spec hbuffer
    exact List.forall_mem_singleton.mpr ⟨hown (houtputs ▸ List.mem_singleton_self _) htype,
      .scene (hinput huv hasType_screenUv)⟩
  | keyword hkind hk htype hvalue =>
    have hout : "Out" ∈ o.declaredOutputs := by
      rw [declaredOutputs, hkind]
      exact List.mem_singleton_self _
    refine List.forall_mem_singleton.mpr ⟨hΓ.own _ hout _ htype, fun a ha => ?_⟩
    obtain ⟨b, hb, rfl⟩ := List.mem_map.mp ha
    obtain ⟨v, hv, hexpr⟩ := hvalue b hb
    have hbranch := hinput hv hasType_replicate
    rw [← hexpr] at hbranch
    exact hbranch

end Operation
end MaterialShader
