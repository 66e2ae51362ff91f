import MaterialShader.Proofs.ExprType
import MaterialShader.Proofs.GenerationError
import MaterialShader.Proofs.InputField
import MaterialShader.Proofs.SectionPermutation

/-!
# Inputs that are read are members

What the code of a stage reads is switched on, but a field that is switched on is a member only
where the struct of the inputs has a place for it.  The structs of the shipped targets have places
for two texture coordinates where nodes can ask for four, and the vertex stage has none for the
position on the screen.  Only these inputs are read and not declared.

## Main definitions

* `HasInput` — the struct of the inputs of a stage has a member among given fields.
* `Stage.missingInputs` — the inputs that the struct of a stage has no place for.

## Main results

* `ActiveFields.shows_of_mem_permutationInstances` — what an instance shows of the active fields.
* `Operation.inputs_requirements_subset` — the inputs that nodes ask for.
* `hasInput_iff_of_readsInput` — an input that is read is a member unless it has no place.
-/

namespace MaterialShader

open Preprocessor
open Shading (inputTypes)

/-! ### The members of an instance -/

namespace ActiveFields

variable {a : ActiveFields} {i : FieldInstance}

/-- Without permutations, what is active is what a single permutation of its own would have. -/
theorem isolates_of_permutationCount_eq_zero (h : a.permutationCount = 0) :
    Isolates ⟨a.base, [[]]⟩ 0 a where
  permutations := List.length_eq_zero_iff.mp h
  mem_base _ := (or_iff_left List.not_mem_nil).symm

/-- **What an instance shows**: each instance that code is generated for has the fields of one
permutation, the only one where there are no others. -/
theorem shows_of_mem_permutationInstances (hi : i ∈ a.permutationInstances) :
    a.Shows (max 1 a.permutationCount) (i.permutation.getD 0) i.fields := by
  unfold permutationInstances at hi
  split at hi
  · next hempty =>
    have hzero : a.permutationCount = 0 := by rw [permutationCount, List.isEmpty_iff.mp hempty]; rfl
    have hshows := (isolates_of_permutationCount_eq_zero hzero).shows Nat.one_pos
    rw [hzero, List.mem_singleton.mp hi]
    rwa [fieldsIn, show own ⟨a.base, [[]]⟩ 0 = [] from rfl, List.append_nil] at hshows
  · next hempty =>
    rw [layered_eq] at hi
    obtain ⟨index, hindex, rfl⟩ := List.mem_map.mp hi
    have hlt := List.mem_range.mp hindex
    rw [max_eq_right (by omega)]
    exact shows_fieldsIn hlt

/-- What a preprocessor knows in an instance: which permutation it is. -/
def symbolsIn (a : ActiveFields) (i : FieldInstance) : String → Option Bool :=
  knownIn (max 1 a.permutationCount) (i.permutation.getD 0)

end ActiveFields

/-- Among some structs, that of the inputs of a stage has a member whose field is among the
given ones. -/
def HasInput (structs : List StructDescriptor) (stage : Stage) (fields : List Field)
    (member : String) : Prop :=
  ∃ s ∈ structs, s.name = stage.inputsTag ∧
    ∃ d ∈ s.fields, d.name = member ∧ d.field ∈ fields

instance (structs : List StructDescriptor) (stage : Stage) (fields : List Field)
    (member : String) : Decidable (HasInput structs stage fields member) :=
  List.decidableBEx _ structs

/-! ### The inputs that nodes ask for -/

/-- Of any requirements with no channel beyond the fourth, the inputs have types. -/
theorem Requirements.inputs_subset {r : Requirements} (h : ∀ channel ∈ r.uvChannels, channel ≤ 3) :
    r.inputs ⊆ inputTypes.map Prod.fst := by
  intro m hm
  simp only [inputs, List.mem_append, or_assoc] at hm
  rcases hm with hm | hm | hm | hm | hm | hm
  · obtain ⟨space, -, rfl⟩ := List.mem_map.mp hm
    cases space <;> decide
  · obtain ⟨space, -, rfl⟩ := List.mem_map.mp hm
    cases space <;> decide
  · obtain ⟨channel, hchannel, rfl⟩ := List.mem_map.mp hm
    have hplace : ∀ channel < 4, uvInput channel ∈ inputTypes.map Prod.fst := by decide
    exact hplace channel (Nat.lt_succ_of_le (h channel hchannel))
  · rw [List.mem_singleton.mp (List.mem_ite_nil_right.mp hm).2]
    decide
  · rw [List.mem_singleton.mp (List.mem_ite_nil_right.mp hm).2]
    decide
  · rw [List.mem_singleton.mp (List.mem_ite_nil_right.mp hm).2]
    decide

/-- **The inputs that nodes ask for** have types. -/
theorem Operation.inputs_requirements_subset (g : Graph) (o : Operation) (stage : Stage) :
    (o.requirements g stage).inputs ⊆ inputTypes.map Prod.fst := by
  have hchannels : (o.requirements g stage).uvChannels ⊆ [o.node.uvChannel] := by
    unfold requirements
    cases o.kind with
    | master => cases stage <;> exact List.nil_subset _
    | sampleTexture =>
      dsimp only
      split
      · exact List.Subset.refl _
      · exact List.nil_subset _
    | uv => exact List.Subset.refl _
    | _ => exact List.nil_subset _
  refine Requirements.inputs_subset fun channel hchannel => ?_
  rw [List.mem_singleton.mp (hchannels hchannel)]
  exact o.node.uvChannel_le

/-! ### The inputs that a struct has a place for -/

/-- The inputs that nodes ask for and that the structs of mesh passes have no place for. -/
def Stage.missingInputs : Stage → List String
  | .vertex => ["uv2", "uv3", "ScreenPosition"]
  | .pixel => ["uv2", "uv3"]

variable {stage : Stage} {fields : List Field} {m : String}

/-- An active input is a member exactly if there is a place for it. -/
theorem hasInput_all_iff (hm : m ∈ inputTypes.map Prod.fst)
    (hfield : Field.ofTag stage.inputsTag m ∈ fields) :
    HasInput MeshStructs.all stage fields m ↔ m ∉ stage.missingInputs := by
  have hplace : ∀ m ∈ inputTypes.map Prod.fst,
      ((∃ s ∈ MeshStructs.all, s.name = stage.inputsTag ∧ ∃ d ∈ s.fields, d.name = m) ↔
        m ∉ stage.missingInputs) := by
    cases stage <;> decide
  have htag : ∀ s ∈ MeshStructs.all, s.name = stage.inputsTag → ∀ d ∈ s.fields,
      d.field = Field.ofTag stage.inputsTag d.name := by
    cases stage <;> decide
  rw [← hplace m hm]
  constructor
  · rintro ⟨s, hs, hname, d, hd, hmember, -⟩
    exact ⟨s, hs, hname, d, hd, hmember⟩
  · rintro ⟨s, hs, hname, d, hd, rfl⟩
    exact ⟨s, hs, hname, d, hd, rfl, htag s hs hname d hd ▸ hfield⟩

/-! ### What is read is declared -/

variable {output : String} {p : Pass} {r : PassFields} {i : FieldInstance}

/-- **What is left of the structs** of a mesh pass in an instance: those of the document, with
the members among the fields of the instance. -/
theorem resolvedSection_structText_of_instance (hstructs : p.structs = MeshStructs.all)
    {a : ActiveFields} (hi : i ∈ a.permutationInstances) :
    resolvedSection (a.symbolsIn i) (structText p.structs a) =
      linesOrPlaceholder
        ([""].intercalate (p.structs.map fun s => s.linesOf (a.symbolsIn i) i.fields 0)) := by
  have hplain : ∀ s ∈ MeshStructs.all, s.HasPlainStrings := by decide +kernel
  exact resolvedSection_structText (ActiveFields.shows_of_mem_permutationInstances hi)
    (hstructs ▸ hplain)

/-- **Inputs that are read are members**, unless there is no place for them.  In every instance
that code is generated for, an input that the code of a live node or the value of a slot reads is
a member of the inputs of the stage, but for the channels beyond the second and, in the vertex
stage, the position on the screen. -/
theorem hasInput_iff_of_readsInput {e : Evaluation} (hp : p ∈ Shipped.passes)
    (h : passFields e.graph output p e.mode e.keywords = .ok r)
    (hi : i ∈ r.active.permutationInstances) :
    resolvedSection (r.active.symbolsIn i) (structText p.structs r.active) =
        linesOrPlaceholder ([""].intercalate
          (p.structs.map fun s => s.linesOf (r.active.symbolsIn i) i.fields 0)) ∧
      (∀ n ∈ (r.stage e.stage).nodes, (∀ index, i.permutation = some index → n.LiveIn index) →
        ∃ o, e.graph.operation n.id = .ok o ∧
          ∀ code, o.code e = .ok code → ∀ m, Code.ReadsInput code m →
            (HasInput p.structs e.stage i.fields m ↔ m ∉ e.stage.missingInputs)) ∧
      ∀ out slots, e.graph.operation output = .ok out → descriptionSlots e out p = .ok slots →
        ∀ d ∈ slots, ∀ m, Text.ReadsInput d.value.expr.text.toList m →
          (HasInput p.structs e.stage i.fields m ↔ m ∉ e.stage.missingInputs) := by
  have hstructs := Shipped.structs_of_mem_passes p hp
  obtain ⟨hnodes, hslots⟩ := mem_fields_of_readsInput h hi
  refine ⟨resolvedSection_structText_of_instance hstructs hi, fun n hn hlive => ?_,
    fun out slots hout hdescription d hd m hm => ?_⟩
  · obtain ⟨o, ho, hfields, -⟩ := hnodes n hn hlive
    refine ⟨o, ho, fun code hcode m hm => ?_⟩
    have hasked := Operation.mem_requirements_of_code hcode hm
    rw [hstructs]
    exact hasInput_all_iff (Operation.inputs_requirements_subset _ _ _ hasked)
      (hfields code hcode m hm)
  · obtain ⟨-, -, hasked⟩ := mem_requirements_of_descriptionSlots hdescription hd hm
    rw [hstructs]
    exact hasInput_all_iff (Operation.inputs_requirements_subset _ _ _ hasked)
      (hslots out slots hout hdescription d hd m hm)

/-- Two texture coordinates that are added up, the second of which the structs have no place
for. -/
def channelGraph : Graph where
  version := "1"
  metadata := { name := "Channel" }
  nodes := [
    { id := "sum", type := "Add", inputs := [{ id := "A" }, { id := "B" }] },
    { id := "near", type := "UV", params := [("channel", .number ⟨false, [1], [], none⟩)] },
    { id := "far", type := "UV", params := [("channel", .number ⟨false, [2], [], none⟩)] }]
  connections := [
    ⟨"c1", ⟨"near", "Out"⟩, ⟨"sum", "A"⟩⟩,
    ⟨"c2", ⟨"far", "Out"⟩, ⟨"sum", "B"⟩⟩]

/-- The pass that previews a node, with the structs of its target. -/
def previewPass : Pass := Preview.target.subShader.complete Preview.pass

theorem previewPass_mem_passes : previewPass ∈ Shipped.passes :=
  Shipped.complete_mem_passes (List.mem_cons_of_mem _ List.mem_cons_self) List.mem_cons_self

theorem hasInput_iff_of_readsInput_channel :
    previewPass ∈ Shipped.passes ∧
      ∃ r o code, passFields channelGraph "sum" previewPass .final [] = .ok r ∧
        r.active.baseInstance ∈ r.active.permutationInstances ∧
        channelGraph.operation "near" = .ok o ∧
          o.code ⟨channelGraph, [], .final, .pixel⟩ = .ok code ∧ Code.ReadsInput code "uv1" ∧
            HasInput previewPass.structs .pixel r.active.baseInstance.fields "uv1" := by
  let e : Evaluation := ⟨channelGraph, [], .final, .pixel⟩
  have hp := previewPass_mem_passes
  obtain ⟨r, hr, hchecked⟩ : ∃ r, passFields channelGraph "sum" previewPass .final [] = .ok r ∧
      decide (r.active.baseInstance ∈ r.active.permutationInstances ∧
        (⟨"near", none⟩ : LiveNode) ∈ r.pixel.nodes) = true :=
    Outcome.exists_of_check (by decide +kernel)
  obtain ⟨hi, hn⟩ := of_decide_eq_true hchecked
  obtain ⟨code, hcode, hline⟩ : ∃ code, (channelGraph.operation "near" >>= fun o => o.code e) =
      .ok code ∧ decide ("float4 _UV_near_Out = IN.uv1;" ∈ Code.textLines code) = true :=
    Outcome.exists_of_check (by decide +kernel)
  obtain ⟨o, ho, hcode⟩ := Outcome.bind_eq_ok_iff.mp hcode
  have hread : Code.ReadsInput code "uv1" := ⟨_, of_decide_eq_true hline, by decide +kernel⟩
  obtain ⟨-, hnodes, -⟩ := hasInput_iff_of_readsInput (e := e) hp hr hi
  obtain ⟨o', ho', hmember⟩ := hnodes ⟨"near", none⟩ hn (by rintro index ⟨⟩)
  obtain rfl : o = o' := Except.ok.inj (ho.symm.trans ho')
  have hplace : "uv1" ∉ Stage.pixel.missingInputs := by decide
  exact ⟨hp, r, o, code, hr, hi, ho, hcode, hread, (hmember code hcode "uv1" hread).mpr hplace⟩

/-- **A texture coordinate that is read and nowhere declared**: the shader is generated, and in no
instance have the inputs the third channel that the code of a live node reads. -/
theorem exists_input_without_member :
    (∃ shader, (Generator.shippedWith channelGraph).generate "sum" .final = .ok shader) ∧
      previewPass ∈ Shipped.passes ∧
      ∃ r o code, passFields channelGraph "sum" previewPass .final [] = .ok r ∧
        (⟨"far", none⟩ : LiveNode) ∈ r.pixel.nodes ∧ channelGraph.operation "far" = .ok o ∧
          o.code ⟨channelGraph, [], .final, .pixel⟩ = .ok code ∧ Code.ReadsInput code "uv2" ∧
            ∀ i ∈ r.active.permutationInstances,
              ¬HasInput previewPass.structs .pixel i.fields "uv2" := by
  have hkind : ∀ id ∈ ["near", "far", "sum"],
      ∃ o, channelGraph.operation id = .ok o ∧ o.kind ≠ .keyword :=
    Graph.exists_operation_of_check (by decide +kernel)
  have hwalked : channelGraph.IsWalked "sum" ["near", "far", "sum"] :=
    { distinct := by decide
      walk := by decide +kernel
      known := fun id hid => (hkind id hid).imp fun _ => And.left }
  refine ⟨Generator.exists_generate_shipped hwalked (List.forall_mem_nil _) rfl rfl
    Shipped.isIn_storeIn hkind, previewPass_mem_passes, ?_⟩
  obtain ⟨r, hr, hn⟩ : ∃ r, passFields channelGraph "sum" previewPass .final [] = .ok r ∧
      decide ((⟨"far", none⟩ : LiveNode) ∈ r.pixel.nodes) = true :=
    Outcome.exists_of_check (by decide +kernel)
  obtain ⟨code, hcode, hline⟩ : ∃ code, (channelGraph.operation "far" >>= fun o =>
      o.code ⟨channelGraph, [], .final, .pixel⟩) = .ok code ∧
        decide ("float4 _UV_far_Out = IN.uv2;" ∈ Code.textLines code) = true :=
    Outcome.exists_of_check (by decide +kernel)
  obtain ⟨o, ho, hcode⟩ := Outcome.bind_eq_ok_iff.mp hcode
  refine ⟨r, o, code, hr, of_decide_eq_true hn, ho, hcode,
    ⟨_, of_decide_eq_true hline, by decide +kernel⟩, ?_⟩
  -- no member of the structs has the name
  rintro i - ⟨s, hs, -, d, hd, hname, -⟩
  have hnone : ∀ s ∈ MeshStructs.all, ∀ d ∈ s.fields, d.name ≠ "uv2" := by decide
  exact hnone s hs d hd hname

end MaterialShader
