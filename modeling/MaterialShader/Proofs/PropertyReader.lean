import MaterialShader.Proofs.CollectedProperty
import MaterialShader.Proofs.NodeType

/-!
# Readers of properties

Of the properties that share a name, a shader declares the one behind the first node of the walk.
The code of every other node with that name goes on to read its own kind: a number, four numbers,
or a texture with its sampler.  So all of them find what they read exactly if no two of them
disagree, and a number that a node names like the texture of another takes the texture's place.

## Main definitions

* `DeclaresValue`, `DeclaresTexture` — what the declarations let code read under a name.
* `Operation.IsProvidedWith` — the declarations hold what the code of a node reads.

## Main results

* `find?_addProperty` — the first property of a name is kept.
* `Operation.isProvidedWith_iff` — a node asks for a property of the type of its own.
* `isProvidedWith_iff_agreeOnTypes` — every node finds what it reads exactly if the nodes agree.
-/

namespace MaterialShader

open Shading (ValueType)

/-! ### The first of a name -/

/-- The property has a name. -/
def Property.isNamed (name : String) (p : Property) : Bool := p.referenceName == name

/-- **The first property of a name is kept**: one more is found only where none was. -/
theorem find?_addProperty (properties : List Property) (p : Property) (name : String) :
    (addProperty properties p).find? (Property.isNamed name) =
      (properties.find? (Property.isNamed name)).or ([p].find? (Property.isNamed name)) := by
  unfold addProperty
  split
  · next htaken =>
    obtain ⟨q, hq, hqname⟩ := List.mem_map.mp htaken
    by_cases hname : p.referenceName = name
    · -- the name is taken by a property that is found first
      have hfound : (properties.find? (Property.isNamed name)).isSome = true :=
        List.find?_isSome.mpr ⟨q, hq, by rw [Property.isNamed, hqname, hname, beq_self_eq_true]⟩
      rw [Option.or_of_isSome hfound]
    · have hnone : [p].find? (Property.isNamed name) = none := by
        simpa [Property.isNamed] using hname
      rw [hnone, Option.or_none]
  · exact List.find?_append

variable {g : Graph} {mode : Mode} {ids : List String} {properties : List Property}

/-- What is collected under a name is the first property of that name behind the nodes. -/
theorem find?_collectProperties (h : collectProperties g mode ids = .ok properties)
    (name : String) : properties.find? (Property.isNamed name) =
      (g.propertiesBehind mode ids).find? (Property.isNamed name) := by
  refine Outcome.foldlM_invariant (fun done state => state.find? (Property.isNamed name) =
    (g.propertiesBehind mode done).find? (Property.isNamed name)) ?_ rfl h
  intro done state id after _ hstate hstep
  obtain ⟨o, ho, hstep⟩ := Outcome.bind_eq_ok_iff.mp hstep
  rw [← Outcome.pure_eq_ok_iff.mp hstep, Graph.propertiesBehind_append_singleton ho,
    List.find?_append, ← hstate]
  unfold Operation.collectProperty
  cases o.property? mode with
  | none =>
    rw [Option.toList_none, List.find?_nil, Option.or_none]
  | some p => exact find?_addProperty state p name

/-! ### What the declarations let code read -/

/-- A property of a name is declared with a type, in the constant buffer or once per instance. -/
def DeclaresValue (properties : List Property) (type : ValueType) (name : String) : Prop :=
  ∃ p ∈ properties, p.referenceName = name ∧
    (p.bufferLine = type.name ++ " " ++ name ++ ";" ∧
        p.bufferLine ∈ materialDeclarations properties ∨
      p.instanceLine = "    UNITY_DEFINE_INSTANCED_PROP(" ++ type.name ++ ", " ++ name ++ ")" ∧
        p.instanceLine ∈ instancedDeclarations properties)

instance (properties : List Property) (type : ValueType) (name : String) :
    Decidable (DeclaresValue properties type name) := List.decidableBEx _ properties

/-- A texture of a name is declared, with its object and its sampler. -/
def DeclaresTexture (properties : List Property) (name : String) : Prop :=
  ∃ p ∈ properties, p.referenceName = name ∧ p.isTexture = true ∧
    "TEXTURE2D(" ++ name ++ ");" ∈ materialDeclarations properties ∧
      "SAMPLER(sampler" ++ name ++ ");" ∈ materialDeclarations properties

instance (properties : List Property) (name : String) :
    Decidable (DeclaresTexture properties name) := List.decidableBEx _ properties

section Declarations

variable {p : Property} {type : ValueType} {name : String}

theorem bufferLine_mem_materialDeclarations (hp : p ∈ properties) (h : p.isPerInstance = false) :
    p.bufferLine ∈ materialDeclarations properties := by
  have hbuffered : p ∈ properties.filter fun q => !q.isPerInstance :=
    List.mem_filter.mpr ⟨hp, by rw [h, Bool.not_false]⟩
  rw [materialDeclarations, if_neg (by simpa using List.ne_nil_of_mem hbuffered)]
  exact List.mem_append_left _ (List.mem_cons_of_mem _ (List.mem_map_of_mem hbuffered))

theorem textureLines_subset_materialDeclarations (hp : p ∈ properties)
    (h : p.isTexture = true) : p.textureLines ⊆ materialDeclarations properties := by
  have hbuffered : p ∈ properties.filter fun q => !q.isPerInstance :=
    List.mem_filter.mpr ⟨hp, by rw [Property.isPerInstance, h, Bool.not_true, Bool.and_false,
      Bool.not_false]⟩
  have htextures : p ∈ (properties.filter fun q => !q.isPerInstance).filter Property.isTexture :=
    List.mem_filter.mpr ⟨hbuffered, h⟩
  intro line hline
  rw [materialDeclarations, if_neg (by simpa using List.ne_nil_of_mem hbuffered)]
  exact List.mem_append_right _ (List.mem_cons_of_mem _
    (List.mem_flatMap.mpr ⟨p, htextures, hline⟩))

theorem instanceLine_mem_instancedDeclarations (hp : p ∈ properties)
    (h : p.isPerInstance = true) : p.instanceLine ∈ instancedDeclarations properties := by
  have hinstanced : p ∈ properties.filter Property.isPerInstance := List.mem_filter.mpr ⟨hp, h⟩
  rw [instancedDeclarations, if_neg (by simpa using List.ne_nil_of_mem hinstanced)]
  exact List.mem_append_left _ (List.mem_cons_of_mem _ (List.mem_map_of_mem hinstanced))

theorem isTexture_iff : p.isTexture = true ↔ p.value.typeName = "TEXTURE2D" := by
  unfold Property.isTexture
  cases p.value with
  | texture default => exact iff_of_true rfl rfl
  | float value => exact iff_of_false Bool.false_ne_true (show "float" ≠ "TEXTURE2D" by decide)
  | color value => exact iff_of_false Bool.false_ne_true (show "float4" ≠ "TEXTURE2D" by decide)
  | vector value => exact iff_of_false Bool.false_ne_true (show "float4" ≠ "TEXTURE2D" by decide)

/-- The line of a texture in the constant buffer declares its size and not the texture. -/
theorem typeName_of_bufferLine (h : p.bufferLine = type.name ++ " " ++ p.referenceName ++ ";") :
    p.value.typeName = type.name := by
  unfold Property.bufferLine at h
  split at h
  · -- the two lines differ in length
    have hlength := congrArg String.length h
    have htype : type.name.length ≤ "float4".length := by cases type <;> decide
    simp only [String.length_append] at hlength
    have hsuffix : "_TexelSize;".length = 11 := by decide
    have hfloat4 : "float4 ".length = 7 := by decide
    have hname : "float4".length = 6 := by decide
    have hspace : " ".length = 1 := by decide
    have hend : ";".length = 1 := by decide
    omega
  · rwa [String.append_left_inj, String.append_left_inj, String.append_left_inj] at h

/-- A value is declared under a name exactly if a property of the name has its type. -/
theorem declaresValue_iff : DeclaresValue properties type name ↔
    ∃ p ∈ properties, p.referenceName = name ∧ p.value.typeName = type.name := by
  refine exists_congr fun p => and_congr_right fun hp => and_congr_right fun hname => ?_
  subst hname
  constructor
  · rintro (⟨hline, -⟩ | ⟨hline, -⟩)
    · exact typeName_of_bufferLine hline
    · unfold Property.instanceLine at hline
      rwa [String.append_left_inj, String.append_left_inj, String.append_left_inj,
        String.append_right_inj] at hline
  · intro htype
    have hvalue : p.isTexture = false := by
      rw [← Bool.not_eq_true, isTexture_iff, htype]
      cases type <;> decide
    by_cases hinstance : p.isPerInstance = true
    · have hline : p.instanceLine =
          "    UNITY_DEFINE_INSTANCED_PROP(" ++ type.name ++ ", " ++ p.referenceName ++ ")" := by
        unfold Property.instanceLine
        rw [htype]
      exact Or.inr ⟨hline, instanceLine_mem_instancedDeclarations hp hinstance⟩
    · refine Or.inl ⟨?_, bufferLine_mem_materialDeclarations hp (by simpa using hinstance)⟩
      rw [Property.bufferLine, hvalue, if_neg Bool.false_ne_true, htype]

/-- A texture is declared under a name exactly if a property of the name is a texture. -/
theorem declaresTexture_iff : DeclaresTexture properties name ↔
    ∃ p ∈ properties, p.referenceName = name ∧ p.value.typeName = "TEXTURE2D" := by
  refine exists_congr fun p => and_congr_right fun hp => and_congr_right fun hname => ?_
  subst hname
  rw [isTexture_iff]
  refine and_iff_left_of_imp fun htype => ?_
  have hlines := textureLines_subset_materialDeclarations hp (isTexture_iff.mpr htype)
  exact ⟨hlines List.mem_cons_self, hlines (List.mem_cons_of_mem _ List.mem_cons_self)⟩

end Declarations

/-! ### What nodes read -/

/-- The declarations hold what the code of a node reads from the material: the value of a
constant with a property behind it, in the type of the constant, or the texture that is
sampled. -/
def Operation.IsProvidedWith (o : Operation) (mode : Mode) (properties : List Property) : Prop :=
  match o.kind with
  | .float => ∀ p ∈ o.backingProperty? mode, DeclaresValue properties .float p.referenceName
  | .color | .vector =>
      ∀ p ∈ o.backingProperty? mode, DeclaresValue properties .float4 p.referenceName
  | .sampleTexture => DeclaresTexture properties o.node.textureName
  | _ => True

/-- A name that is an identifier already stays as it is. -/
theorem Text.identifier_identifier (name : String) :
    identifier (identifier name) = identifier name := by
  have hchars := all_identifierChars name.toList
  have hne := identifierChars_ne_nil name.toList
  rw [identifier, identifier, String.toList_ofList]
  generalize identifierChars name.toList = chars at hchars hne
  rw [identifierChars, if_neg (by simpa using hne)]
  refine congrArg _ ((List.map_congr_left fun c hc => ?_).trans (List.map_id' chars))
  exact if_pos (List.all_eq_true.mp hchars c hc)

/-- The name of the property of a texture is the one that is sampled. -/
theorem Node.referenceName_textureProperty (n : Node) :
    n.textureProperty.referenceName = n.textureName := Text.identifier_identifier _

namespace Operation

variable {o : Operation}

/-- **A node asks for a property of its own name and type**: the declarations hold what its
code reads exactly if they have one. -/
theorem isProvidedWith_iff : o.IsProvidedWith mode properties ↔
    ∀ p, o.property? mode = some p → ∃ q ∈ properties,
      q.referenceName = p.referenceName ∧ q.value.typeName = p.value.typeName := by
  -- a constant has the type that its kind says
  have hconstant : ∀ type : ValueType,
      (∀ value, o.constant? = some value → value.typeName = type.name) →
        ((∀ p ∈ o.backingProperty? mode, DeclaresValue properties type p.referenceName) ↔
          ∀ p, o.backingProperty? mode = some p → ∃ q ∈ properties,
            q.referenceName = p.referenceName ∧ q.value.typeName = p.value.typeName) := by
    intro type htype
    refine forall₂_congr fun p hp => ?_
    rw [declaresValue_iff, htype p.value (value_backingProperty? hp)]
  unfold IsProvidedWith property?
  cases hkind : o.kind with
  | float =>
    refine hconstant .float fun value hvalue => ?_
    rw [constant?, hkind] at hvalue
    rw [← Option.some.inj hvalue]
    rfl
  | color | vector =>
    refine hconstant .float4 fun value hvalue => ?_
    rw [constant?, hkind] at hvalue
    rw [← Option.some.inj hvalue]
    rfl
  | sampleTexture =>
    show DeclaresTexture properties o.node.textureName ↔ _
    rw [declaresTexture_iff, ← Node.referenceName_textureProperty]
    constructor
    · rintro h p hp
      rw [← Option.some.inj hp]
      exact h
    · intro h
      exact h _ rfl
  | _ =>
    refine iff_of_true trivial fun p hp => ?_
    have hvalue := value_backingProperty? hp
    rw [constant?, hkind] at hvalue
    exact absurd hvalue (by rintro ⟨⟩)

/-- The type of the property behind a node is that of the property that it finds. -/
theorem exists_of_mem_propertiesBehind
    (hprovided : ∀ id ∈ ids, ∀ o, g.operation id = .ok o → o.IsProvidedWith mode properties)
    {p : Property} (hp : p ∈ g.propertiesBehind mode ids) :
    ∃ q ∈ properties, q.referenceName = p.referenceName ∧ q.value.typeName = p.value.typeName := by
  obtain ⟨id, hid, o, ho, hproperty⟩ := Graph.mem_propertiesBehind.mp hp
  exact isProvidedWith_iff.mp (hprovided id hid o ho) p hproperty

end Operation

/-! ### All nodes of a walk -/

/-- **The first property of a name serves every reader exactly if the nodes agree.**  Under each
name the property of the first node with that name is collected and no other, and all nodes find
what their code reads exactly if those that share a name share its type. -/
theorem isProvidedWith_iff_agreeOnTypes (h : collectProperties g mode ids = .ok properties) :
    (∀ name, properties.find? (Property.isNamed name) =
        (g.propertiesBehind mode ids).find? (Property.isNamed name)) ∧
      (properties.map Property.referenceName).Nodup ∧
      ((∀ id ∈ ids, ∀ o, g.operation id = .ok o → o.IsProvidedWith mode properties) ↔
        AgreeOnTypes (g.propertiesBehind mode ids)) := by
  obtain ⟨-, -, hnodup⟩ := collectProperties_spec h
  refine ⟨find?_collectProperties h, hnodup, ?_, ?_⟩
  · intro hprovided p hp q hq hname
    obtain ⟨p', hp', hpname, hptype⟩ := Operation.exists_of_mem_propertiesBehind hprovided hp
    obtain ⟨q', hq', hqname, hqtype⟩ := Operation.exists_of_mem_propertiesBehind hprovided hq
    -- no name is collected twice
    obtain rfl : p' = q' :=
      List.inj_on_of_nodup_map hnodup hp' hq' ((hpname.trans hname).trans hqname.symm)
    exact hptype.symm.trans hqtype
  · intro hagree id hid o ho
    refine Operation.isProvidedWith_iff.mpr fun p hp => ?_
    exact exists_collected_of_agreeOnTypes h hagree
      (Graph.mem_propertiesBehind.mpr ⟨id, hid, o, ho, hp⟩)

/-- A colour and a vector that share a property, and a number that is named like a texture. -/
def maskGraph : Graph where
  version := "1"
  metadata := { name := "Mask" }
  nodes := [
    { id := "out", type := "Master", inputs := [{ id := "BaseColor" }, { id := "Emission" }] },
    { id := "sum", type := "Add", inputs := [{ id := "A" }, { id := "B" }] },
    { id := "f", type := "Float", params := [("property", .text "_Mask")] },
    { id := "s", type := "SampleTexture2D", params := [("texture", .text "_Mask")] },
    { id := "mul", type := "Multiply", inputs := [{ id := "A" }, { id := "B" }] },
    { id := "c", type := "Color", params := [("property", .text "_Tint")] },
    { id := "v", type := "Vector", params := [("property", .text "_Tint")] }]
  connections := [
    ⟨"c1", ⟨"f", "Out"⟩, ⟨"sum", "A"⟩⟩,
    ⟨"c2", ⟨"s", "RGBA"⟩, ⟨"sum", "B"⟩⟩,
    ⟨"c3", ⟨"c", "Out"⟩, ⟨"mul", "A"⟩⟩,
    ⟨"c4", ⟨"v", "Out"⟩, ⟨"mul", "B"⟩⟩,
    ⟨"c5", ⟨"sum", "Out"⟩, ⟨"out", "BaseColor"⟩⟩,
    ⟨"c6", ⟨"mul", "Out"⟩, ⟨"out", "Emission"⟩⟩]

/-- The colour and the vector agree, and the colour's property serves both. -/
theorem isProvidedWith_iff_agreeOnTypes_mask :
    maskGraph.evaluationOrder "mul" = .ok ["c", "v", "mul"] ∧
      ∃ properties, collectProperties maskGraph .final ["c", "v", "mul"] = .ok properties ∧
        (properties.map Property.referenceName).Nodup ∧
        ∀ id ∈ ["c", "v", "mul"], ∀ o, maskGraph.operation id = .ok o →
          o.IsProvidedWith .final properties := by
  obtain ⟨properties, hproperties⟩ : ∃ properties,
      collectProperties maskGraph .final ["c", "v", "mul"] = .ok properties :=
    Outcome.exists_of_isOk (by decide +kernel)
  obtain ⟨-, hnodup, hprovided⟩ := isProvidedWith_iff_agreeOnTypes hproperties
  exact ⟨by decide +kernel, properties, hproperties, hnodup, hprovided.mpr (by decide +kernel)⟩

/-- **A number takes the place of a texture** that has its name and comes later in the walk: the
texture is sampled, and nowhere declared. -/
theorem exists_not_isProvidedWith_mask :
    maskGraph.evaluationOrder "out" = .ok ["f", "s", "sum", "c", "v", "mul", "out"] ∧
      ∃ properties, collectProperties maskGraph .final ["f", "s", "sum", "c", "v", "mul", "out"] =
          .ok properties ∧
        ∃ o, maskGraph.operation "s" = .ok o ∧ ¬o.IsProvidedWith .final properties := by
  obtain ⟨properties, hproperties, hnone⟩ : ∃ properties, collectProperties maskGraph .final
      ["f", "s", "sum", "c", "v", "mul", "out"] = .ok properties ∧
        decide (¬DeclaresTexture properties "_Mask") = true :=
    Outcome.exists_of_check (by decide +kernel)
  obtain ⟨o, ho, hsample⟩ : ∃ o, maskGraph.operation "s" = .ok o ∧
      decide (o.kind = .sampleTexture ∧ o.node.textureName = "_Mask") = true :=
    Outcome.exists_of_check (by decide +kernel)
  obtain ⟨hkind, hname⟩ := of_decide_eq_true hsample
  refine ⟨by decide +kernel, properties, hproperties, o, ho, ?_⟩
  rw [Operation.IsProvidedWith, hkind, hname]
  exact of_decide_eq_true hnone

end MaterialShader
