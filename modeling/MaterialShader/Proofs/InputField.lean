import MaterialShader.Proofs.InputText
import MaterialShader.Proofs.PassFields
import MaterialShader.Proofs.StageOrder

/-!
# Inputs that are read are switched on

The struct of the inputs of a stage has a member only where its field is active.  So all that
the code of a stage reads has to be active wherever that code is compiled.  A node is compiled
in the permutations it is live in, and there it is asked for; whether the field is stored in the
base or with the permutation, and whatever dependencies add to it, it holds in the instance.

What the scene is read through is no field: a symbol asks for it, in all permutations alike.

## Main results

* `mem_fields_of_asked` — what a live node asks for is active.
* `exists_operation_of_stageNodes` — the symbols that a live node needs are defined.
* `mem_fields_of_readsInput` — every input that is read is switched on.
-/

namespace MaterialShader

/-! ### What is asked for is active -/

namespace ActiveFields

/-- The instances that code is generated for are the base or permutations. -/
theorem eq_or_exists_of_mem_permutationInstances {a : ActiveFields} {i : FieldInstance}
    (h : i ∈ a.permutationInstances) :
    (a.permutationCount = 0 ∧ i = a.baseInstance) ∨
      ∃ index < a.permutationCount, a.instance? index = some i ∧ i.permutation = some index := by
  unfold permutationInstances at h
  split at h
  · next hempty =>
    rw [List.isEmpty_iff] at hempty
    exact Or.inl ⟨by rw [permutationCount, hempty]; rfl, List.mem_singleton.mp h⟩
  · obtain ⟨index, hindex, rfl⟩ := List.mem_mapIdx.mp h
    refine Or.inr ⟨index, hindex, ?_, rfl⟩
    rw [instance?, List.getElem?_eq_getElem hindex]
    rfl

theorem lt_of_mem_permutationInstances {a : ActiveFields} {i : FieldInstance} {index : Nat}
    (h : i ∈ a.permutationInstances) (hindex : i.permutation = some index) :
    index < a.permutationCount := by
  rcases eq_or_exists_of_mem_permutationInstances h with ⟨-, rfl⟩ | ⟨index', hlt, -, hindex'⟩
  · exact absurd hindex (by rintro ⟨⟩)
  · rw [Option.some.inj (hindex.symm.trans hindex')]
    exact hlt

end ActiveFields

variable {g : Graph} {output : String} {p : Pass} {mode : Mode} {ks : Keywords} {r : PassFields}
  {stage : Stage} {i : FieldInstance} {n : LiveNode} {o : Operation} {f : Field}

/-- **What a live node asks for is active** in the instances it is live in. -/
theorem mem_fields_of_asked (h : passFields g output p mode ks = .ok r)
    (hi : i ∈ r.active.permutationInstances) (hn : n ∈ (r.stage stage).nodes)
    (hlive : ∀ index, i.permutation = some index → n.LiveIn index)
    (ho : g.operation n.id = .ok o) (hf : f ∈ (o.requirements g stage).fields stage) :
    f ∈ i.fields := by
  obtain ⟨out, a, b, -, -, ha, -, hb, hactive, hcount⟩ := passFields_collected h
  have hasked : ∀ {live : LiveNode → Prop}, live n → Asked g stage (r.stage stage).nodes live f :=
    fun hn' => ⟨n, hn, hn', o, ho, hf⟩
  have hcountA : a.permutationCount = r.active.permutationCount := ha.count.trans hcount.symm
  have hcountB : b.permutationCount = r.active.permutationCount := hb.count.trans hcountA
  rcases ActiveFields.eq_or_exists_of_mem_permutationInstances hi with
    ⟨hzero, rfl⟩ | ⟨index, hindex, hinstance, hpermutation⟩
  · -- without permutations every node is live in all of them
    show f ∈ r.active.base
    rw [hactive]
    refine ActiveFields.mem_base_propagate_iff.mpr (.start ?_)
    cases stage with
    | vertex => exact (hb.base f).mpr (Or.inl ((ha.base f).mpr (Or.inr (hasked (by omega)))))
    | pixel => exact (hb.base f).mpr (Or.inr (hasked (by omega)))
  · obtain ⟨i', hi', hfields⟩ := ActiveFields.exists_instance?_iff hindex
    obtain rfl : i = i' := Option.some.inj (hinstance.symm.trans hi')
    rw [hfields, hactive]
    refine (ActiveFields.holdsIn_propagate_iff (by omega)).mpr (.start ?_)
    have hn' := hlive index hpermutation
    cases stage with
    | vertex =>
      have hvertex := (ha.holdsIn index (by omega) f).mpr (Or.inr (hasked hn'))
      exact (hb.holdsIn index (by omega) f).mpr (Or.inl hvertex)
    | pixel => exact (hb.holdsIn index (by omega) f).mpr (Or.inr (hasked hn'))

/-! ### Symbols that are needed are defined -/

namespace Requirements

theorem mem_defines {a : Requirements} {line : String} :
    line ∈ a.defines ↔ (a.depthTexture = true ∧ line = "#define REQUIRE_DEPTH_TEXTURE") ∨
      (a.opaqueTexture = true ∧ line = "#define REQUIRE_OPAQUE_TEXTURE") := by
  unfold defines
  cases a.depthTexture <;> cases a.opaqueTexture <;> simp

theorem mem_defines_union {a b : Requirements} {line : String} :
    line ∈ (a.union b).defines ↔ line ∈ a.defines ∨ line ∈ b.defines := by
  have hdepth : (a.union b).depthTexture = (a.depthTexture || b.depthTexture) := rfl
  have hopaque : (a.union b).opaqueTexture = (a.opaqueTexture || b.opaqueTexture) := rfl
  rw [mem_defines, mem_defines, mem_defines, hdepth, hopaque, Bool.or_eq_true, Bool.or_eq_true]
  tauto

end Requirements

theorem Operation.depthTexture_requirements (o : Operation) (hkind : o.kind = .sceneDepth) :
    (o.requirements g stage).depthTexture = true := by
  unfold requirements
  rw [hkind]

theorem Operation.opaqueTexture_requirements (o : Operation) (hkind : o.kind = .sceneColor) :
    (o.requirements g stage).opaqueTexture = true := by
  unfold requirements
  rw [hkind]

/-- Every node of a stage is there, and what a live one needs is defined. -/
theorem exists_operation_of_stageNodes {slots : Option (List String)} {a b : ActiveFields}
    {s : StageNodes} (h : stageNodes g output slots ks stage a = .ok (s, b)) :
    ∀ n ∈ s.nodes, ∃ o, g.operation n.id = .ok o ∧
      (n.isLive = true → (o.requirements g stage).defines ⊆ s.requirements.defines) := by
  obtain ⟨nodes, -, h⟩ := Outcome.bind_eq_ok_iff.mp h
  obtain ⟨⟨b', needs⟩, hfold, h⟩ := Outcome.bind_eq_ok_iff.mp h
  obtain ⟨rfl, rfl⟩ := Prod.mk.inj (Outcome.pure_eq_ok_iff.mp h)
  refine Outcome.foldlM_invariant (fun (done : List LiveNode) state => ∀ n ∈ done,
      ∃ o, g.operation n.id = .ok o ∧
        (n.isLive = true → (o.requirements g stage).defines ⊆ Requirements.defines state.2))
    ?_ (List.forall_mem_nil _) hfold
  intro done state m state' _ hdone hstep
  obtain ⟨o, ho, hstep⟩ := Outcome.bind_eq_ok_iff.mp hstep
  rw [← Outcome.pure_eq_ok_iff.mp hstep]
  intro n hn
  rcases List.mem_append.mp hn with hn | hn
  · -- what earlier nodes need stays defined
    obtain ⟨o', ho', hneeds⟩ := hdone n hn
    refine ⟨o', ho', fun hlive line hline => ?_⟩
    have hbefore := hneeds hlive hline
    dsimp only
    split
    · exact Requirements.mem_defines_union.mpr (Or.inl hbefore)
    · exact hbefore
  · rw [List.mem_singleton.mp hn]
    refine ⟨o, ho, fun hlive line hline => ?_⟩
    dsimp only
    rw [if_pos hlive]
    exact Requirements.mem_defines_union.mpr (Or.inr hline)

/-- Every node of a pass is there, and what a live one needs is defined for the pass. -/
theorem exists_operation_of_passFields (h : passFields g output p mode ks = .ok r)
    (hn : n ∈ (r.stage stage).nodes) : ∃ o, g.operation n.id = .ok o ∧
      (n.isLive = true → (o.requirements g stage).defines ⊆ r.requirements.defines) := by
  obtain ⟨out, a, b, -, hvertex, hpixel, -⟩ := passFields_stages h
  cases stage with
  | vertex =>
    split at hvertex
    · obtain ⟨o, ho, hneeds⟩ := exists_operation_of_stageNodes hvertex n hn
      exact ⟨o, ho, fun hlive line hline =>
        Requirements.mem_defines_union.mpr (Or.inl (hneeds hlive hline))⟩
    · have hempty : r.vertex.nodes = [] := by rw [hvertex.1]; rfl
      rw [show (r.stage .vertex).nodes = [] from hempty] at hn
      exact absurd hn List.not_mem_nil
  | pixel =>
    obtain ⟨o, ho, hneeds⟩ := exists_operation_of_stageNodes hpixel n hn
    exact ⟨o, ho, fun hlive line hline =>
      Requirements.mem_defines_union.mpr (Or.inr (hneeds hlive hline))⟩

/-! ### What is read is switched on -/

/-- A node that is live in an instance that code is generated for is live. -/
theorem isLive_of_mem_permutationInstances (h : passFields g output p mode ks = .ok r)
    (hi : i ∈ r.active.permutationInstances) (hn : n ∈ (r.stage stage).nodes)
    (hlive : ∀ index, i.permutation = some index → n.LiveIn index) : n.isLive = true := by
  rcases ActiveFields.eq_or_exists_of_mem_permutationInstances hi with
    ⟨hzero, -⟩ | ⟨index, -, -, hpermutation⟩
  · have hspread := isSpread_of_passFields h stage n hn
    rw [hzero] at hspread
    have hfirst : n.LiveIn 0 := LiveNode.liveIn_of_isSpread_zero hspread
    exact LiveNode.isLive_of_liveIn hfirst
  · exact LiveNode.isLive_of_liveIn (hlive index hpermutation)

/-- The value of a slot reads only inputs that the output asks for. -/
theorem mem_requirements_of_descriptionSlots {e : Evaluation} {out : Operation}
    {slots : List DescriptionSlot} {d : DescriptionSlot} {m : String}
    (h : descriptionSlots e out p = .ok slots) (hd : d ∈ slots)
    (hm : Text.ReadsInput d.value.expr.text.toList m) :
    out.isMaster = true ∧ p.slots e.stage ≠ [] ∧
      m ∈ (out.requirements e.graph e.stage).inputs := by
  obtain ⟨hmaster, s, hs, v, hv, rfl⟩ | ⟨-, -, t, -, rfl⟩ := descriptionSlots_spec h hd
  · obtain ⟨hslot, hmask⟩ := MasterSlot.mem_ofStage_of_mem_masked hs
    have hkind : out.kind = .master := by simpa [Operation.isMaster] using hmaster
    refine ⟨hmaster, List.ne_nil_of_mem hmask, ?_⟩
    refine mem_requirements_of_masterSlot hkind hslot hv m ?_
    have hregular := Graph.isRegular_inputValue hv (MasterSlot.isRegular_default hslot)
    exact (Shading.Expr.readsInput_text_iff hregular).mp hm
  · -- the preview of a node passes on a variable
    have hvariable : (Shading.Expr.variable (out.node.variable out.primaryOutput)).IsRegular :=
      out.node.isName_variable out.primaryOutput
    have hread := (Shading.Expr.readsInput_text_iff
      (Shading.Expr.isRegular_coerce (v := ⟨t, _⟩) hvariable .float4)).mp hm
    rw [Shading.Expr.inputs_coerce] at hread
    exact absurd hread List.not_mem_nil

/-- **Inputs that are read are switched on.**  In every instance that code is generated for,
each input that the code of a live node reads is active, and so is each input that the value of
a slot of the output reads; and the symbol for the depth or the colour of the scene is defined
where a live node reads it. -/
theorem mem_fields_of_readsInput {e : Evaluation}
    (h : passFields e.graph output p e.mode e.keywords = .ok r)
    (hi : i ∈ r.active.permutationInstances) :
    (∀ n ∈ (r.stage e.stage).nodes, (∀ index, i.permutation = some index → n.LiveIn index) →
      ∃ o, e.graph.operation n.id = .ok o ∧
        (∀ code, o.code e = .ok code → ∀ m, Code.ReadsInput code m →
          Field.ofTag e.stage.inputsTag m ∈ i.fields) ∧
        (o.kind = .sceneDepth → "#define REQUIRE_DEPTH_TEXTURE" ∈ r.requirements.defines) ∧
        (o.kind = .sceneColor → "#define REQUIRE_OPAQUE_TEXTURE" ∈ r.requirements.defines)) ∧
      ∀ out slots, e.graph.operation output = .ok out → descriptionSlots e out p = .ok slots →
        ∀ d ∈ slots, ∀ m, Text.ReadsInput d.value.expr.text.toList m →
          Field.ofTag e.stage.inputsTag m ∈ i.fields := by
  refine ⟨fun n hn hlive => ?_, fun out slots hout hslots d hd m hm => ?_⟩
  · obtain ⟨o, ho, hneeds⟩ := exists_operation_of_passFields h hn
    have hneeds := hneeds (isLive_of_mem_permutationInstances h hi hn hlive)
    refine ⟨o, ho, fun code hcode m hm => ?_, fun hkind => hneeds ?_, fun hkind => hneeds ?_⟩
    · exact mem_fields_of_asked h hi hn hlive ho
        (List.mem_map_of_mem (Operation.mem_requirements_of_code hcode hm))
    · exact Requirements.mem_defines.mpr (Or.inl ⟨o.depthTexture_requirements hkind, rfl⟩)
    · exact Requirements.mem_defines.mpr (Or.inr ⟨o.opaqueTexture_requirements hkind, rfl⟩)
  · obtain ⟨hmaster, hmask, hm⟩ := mem_requirements_of_descriptionSlots hslots hd hm
    obtain ⟨out', hout', -, hnodes⟩ := passFields_liveNodes h e.stage
    obtain rfl : out = out' := Except.ok.inj (hout.symm.trans hout')
    -- the stage has slots, so it has nodes, and the output is live in all permutations
    obtain hnodes | ⟨-, hempty⟩ := hnodes
    · obtain ⟨pre, n, post, hsplit, rfl, hlive⟩ := exists_output_of_liveNodes hnodes
      have hn : n ∈ (r.stage e.stage).nodes := hsplit ▸ List.mem_append_right _ List.mem_cons_self
      refine mem_fields_of_asked h hi hn (fun index hindex => hlive index (Or.inr ?_)) hout
        (List.mem_map_of_mem hm)
      exact ActiveFields.lt_of_mem_permutationInstances hi hindex
    · exact absurd (hempty hmaster) hmask

theorem mem_fields_of_readsInput_detail :
    let e : Evaluation := ⟨detailGraph, detailGraph.keywords, .final, .pixel⟩
    ∃ r i o code, passFields detailGraph "master" detailPass .final detailGraph.keywords = .ok r ∧
      r.active.instance? 1 = some i ∧ detailGraph.operation "uv" = .ok o ∧ o.code e = .ok code ∧
        Code.ReadsInput code "uv0" ∧ Field.ofTag "SurfaceDescriptionInputs" "uv0" ∈ i.fields := by
  intro e
  obtain ⟨r, hr, hchecked⟩ : ∃ r, passFields detailGraph "master" detailPass .final
      detailGraph.keywords = .ok r ∧ ((r.active.instance? 1).any fun i =>
        decide (i ∈ r.active.permutationInstances ∧ i.permutation = some 1 ∧
          (⟨"uv", some [1]⟩ : LiveNode) ∈ r.pixel.nodes)) = true :=
    Outcome.exists_of_check (by decide +kernel)
  rw [Option.any_eq_true] at hchecked
  obtain ⟨i, hinstance, hchecked⟩ := hchecked
  obtain ⟨hi, hpermutation, hn⟩ := of_decide_eq_true hchecked
  obtain ⟨code, hcode, hline⟩ : ∃ code, (detailGraph.operation "uv" >>= fun o => o.code e) =
      .ok code ∧ decide ("float4 _UV_uv_Out = IN.uv0;" ∈ Code.textLines code) = true :=
    Outcome.exists_of_check (by decide +kernel)
  obtain ⟨o, ho, hcode⟩ := Outcome.bind_eq_ok_iff.mp hcode
  have hread : Code.ReadsInput code "uv0" := ⟨_, of_decide_eq_true hline, by decide +kernel⟩
  obtain ⟨hnodes, -⟩ := mem_fields_of_readsInput (e := e) hr hi
  obtain ⟨o', ho', hfields, -, -⟩ := hnodes ⟨"uv", some [1]⟩ hn (by
    intro index hindex
    rw [← Option.some.inj (hpermutation.symm.trans hindex)]
    decide)
  obtain rfl : o = o' := Except.ok.inj (ho.symm.trans ho')
  exact ⟨r, i, o, code, hr, hinstance, ho, hcode, hread, hfields code hcode "uv0" hread⟩

end MaterialShader
