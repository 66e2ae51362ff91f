import Mathlib.Data.List.Nodup
import MaterialShader.Proofs.Outcome
import MaterialShader.Shader.Generate

/-!
# Collected properties

A shader declares the properties behind its nodes, and of those with one name only the first.
So each node finds a property of the name it reads.  It is a property of the type that the node
reads only where the nodes that share a name agree on the type, and nothing makes them: a
number and a colour may both name one property, which then is a number.

## Main definitions

* `Graph.propertiesBehind` — the properties behind nodes, before any is left out.
* `AgreeOnTypes` — properties that share a name share a type.

## Main results

* `collectProperties_spec` — what is collected.
* `exists_collected_of_agreeOnTypes` — a property is declared with the type it is read with.
-/

namespace MaterialShader

open Outcome (FailsOnly)

/-! ### One more property -/

section AddProperty

variable {properties : List Property} {p q : Property}

theorem subset_addProperty : properties ⊆ addProperty properties p := by
  unfold addProperty
  split
  · exact List.Subset.refl _
  · exact List.subset_append_left _ _

theorem mem_or_eq_of_mem_addProperty (h : q ∈ addProperty properties p) :
    q ∈ properties ∨ q = p := by
  unfold addProperty at h
  split at h
  · exact Or.inl h
  · exact (List.mem_append.mp h).imp id List.mem_singleton.mp

theorem exists_of_addProperty :
    ∃ q ∈ addProperty properties p, q.referenceName = p.referenceName := by
  unfold addProperty
  split
  · next htaken => exact List.mem_map.mp htaken
  · exact ⟨p, List.mem_append_right _ (List.mem_singleton_self p), rfl⟩

theorem nodup_addProperty (h : (properties.map Property.referenceName).Nodup) :
    ((addProperty properties p).map Property.referenceName).Nodup := by
  unfold addProperty
  split
  · exact h
  · next hfree =>
    rw [List.map_append, List.nodup_append']
    exact ⟨h, List.nodup_singleton _, List.disjoint_singleton.mpr hfree⟩

end AddProperty

/-! ### The properties of a graph -/

/-- The properties behind nodes, in the order of the nodes. -/
def Graph.propertiesBehind (g : Graph) (mode : Mode) (ids : List String) : List Property :=
  ids.filterMap fun id => (g.operation id).toOption.bind fun o => o.property? mode

variable {g : Graph} {mode : Mode} {ids : List String} {properties : List Property}

theorem Graph.mem_propertiesBehind {p : Property} : p ∈ g.propertiesBehind mode ids ↔
    ∃ id ∈ ids, ∃ o, g.operation id = .ok o ∧ o.property? mode = some p := by
  rw [propertiesBehind, List.mem_filterMap]
  refine exists_congr fun id => and_congr_right fun _ => ?_
  cases g.operation id with
  | error e => exact ⟨fun h => absurd h (by rintro ⟨⟩), fun ⟨_, ho, _⟩ => absurd ho (by rintro ⟨⟩)⟩
  | ok o =>
    exact ⟨fun h => ⟨o, rfl, h⟩, fun ⟨o', ho', hp⟩ => Except.ok.inj ho' ▸ hp⟩

theorem Graph.propertiesBehind_append_singleton {id : String} {o : Operation}
    (ho : g.operation id = .ok o) : g.propertiesBehind mode (ids ++ [id]) =
      g.propertiesBehind mode ids ++ (o.property? mode).toList := by
  rw [propertiesBehind, List.filterMap_append, ← propertiesBehind]
  refine congrArg _ ?_
  rw [List.filterMap_cons, ho]
  cases h : o.property? mode <;> simp [Except.toOption, h]

/-- The errors of collecting properties are those of look-ups. -/
theorem failsOnly_collectProperties {P : GenerationError → Prop}
    (h : ∀ id ∈ ids, FailsOnly P (g.operation id)) (mode : Mode) :
    FailsOnly P (collectProperties g mode ids) :=
  FailsOnly.foldlM fun _ id hid => FailsOnly.map (h id hid)

/-- The properties of nodes that are known are collected without errors. -/
theorem exists_collectProperties (h : ∀ id ∈ ids, ∃ o, g.operation id = .ok o) (mode : Mode) :
    ∃ properties, collectProperties g mode ids = .ok properties :=
  FailsOnly.exists_ok
    (failsOnly_collectProperties (fun id hid => FailsOnly.of_exists (h id hid)) mode)

/-- **What is collected** is behind a node; every property behind a node has its name taken, and
no name is taken twice. -/
theorem collectProperties_spec (h : collectProperties g mode ids = .ok properties) :
    properties ⊆ g.propertiesBehind mode ids ∧
      (∀ p ∈ g.propertiesBehind mode ids, ∃ q ∈ properties, q.referenceName = p.referenceName) ∧
      (properties.map Property.referenceName).Nodup := by
  refine Outcome.foldlM_invariant (fun done state => state ⊆ g.propertiesBehind mode done ∧
    (∀ p ∈ g.propertiesBehind mode done, ∃ q ∈ state, q.referenceName = p.referenceName) ∧
      (state.map Property.referenceName).Nodup) ?_
    ⟨List.Subset.refl _, List.forall_mem_nil _, List.nodup_nil⟩ h
  intro done state id after _ hstate hstep
  obtain ⟨hsubset, htaken, hnodup⟩ := hstate
  obtain ⟨o, ho, hstep⟩ := Outcome.bind_eq_ok_iff.mp hstep
  rw [← Outcome.pure_eq_ok_iff.mp hstep, Graph.propertiesBehind_append_singleton ho]
  unfold Operation.collectProperty
  cases o.property? mode with
  | none =>
    rw [Option.toList_none, List.append_nil]
    exact ⟨hsubset, htaken, hnodup⟩
  | some p =>
    rw [Option.toList_some]
    refine ⟨fun q hq => ?_, fun q hq => ?_, nodup_addProperty hnodup⟩
    · rcases mem_or_eq_of_mem_addProperty hq with hq | rfl
      · exact List.mem_append_left _ (hsubset hq)
      · exact List.mem_append_right _ (List.mem_singleton_self q)
    · rcases List.mem_append.mp hq with hq | hq
      · obtain ⟨q', hq', hname⟩ := htaken q hq
        exact ⟨q', subset_addProperty hq', hname⟩
      · rw [List.mem_singleton.mp hq]
        exact exists_of_addProperty

/-! ### Agreement -/

/-- Properties that share a name share a type. -/
def AgreeOnTypes (properties : List Property) : Prop :=
  ∀ p ∈ properties, ∀ q ∈ properties, p.referenceName = q.referenceName →
    p.value.typeName = q.value.typeName

instance (properties : List Property) : Decidable (AgreeOnTypes properties) :=
  inferInstanceAs (Decidable (∀ p ∈ properties, ∀ q ∈ properties,
    p.referenceName = q.referenceName → p.value.typeName = q.value.typeName))

/-- **A property is declared with the type it is read with**, where nodes that share a name
agree on it. -/
theorem exists_collected_of_agreeOnTypes (h : collectProperties g mode ids = .ok properties)
    (hagree : AgreeOnTypes (g.propertiesBehind mode ids)) {p : Property}
    (hp : p ∈ g.propertiesBehind mode ids) :
    ∃ q ∈ properties, q.referenceName = p.referenceName ∧ q.value.typeName = p.value.typeName := by
  obtain ⟨hsubset, htaken, -⟩ := collectProperties_spec h
  obtain ⟨q, hq, hname⟩ := htaken p hp
  exact ⟨q, hq, hname, hagree q (hsubset hq) p hp hname⟩

end MaterialShader
