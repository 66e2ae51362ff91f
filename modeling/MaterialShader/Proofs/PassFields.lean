import MaterialShader.Proofs.FieldClosure
import MaterialShader.Proofs.LiveNode

/-!
# The active fields of a pass

A field reaches a permutation by several ways: it is one of the fields the pass starts with,
a node that is live everywhere puts it into the base, a node with a guard puts it into the
permutations of the guard unless the base has it by then, or a dependency asks for it.  What
matters in the end is only what is asked for: the order of the nodes decides where a field is
stored and not where it holds.

## Main definitions

* `Asked` — some node asks for a field.
* `Requested` — a field a pass starts with, or one that a node of a stage asks for.

## Main results

* `activate_spec`, `stageNodes_spec` — the fields after one node and after a stage.
* `passFields_liveNodes` — the nodes of the stages of a pass.
* `mem_passFields_iff` — the fields of every permutation of a pass, and of its base.
-/

namespace MaterialShader

namespace ActiveFields

variable {a : ActiveFields} {fields : List Field} {f g : Field} {index : Nat}

/-! ### Adding fields -/

theorem mem_base_addToBase : f ∈ (a.addToBase fields).base ↔ f ∈ a.base ∨ f ∈ fields :=
  mem_addFields

theorem holdsIn_addToBase :
    (a.addToBase fields).HoldsIn index f ↔ a.HoldsIn index f ∨ f ∈ fields := by
  rw [HoldsIn, mem_base_addToBase, or_right_comm]
  rfl

theorem base_addToPermutation (i : Nat) : (a.addToPermutation i f).base = a.base := by
  unfold addToPermutation
  split <;> rfl

theorem permutationCount_addToPermutation (i : Nat) :
    (a.addToPermutation i f).permutationCount = a.permutationCount := by
  unfold addToPermutation
  split
  · rfl
  · exact List.length_modify ..

/-- A field added to a permutation holds there afterwards, also if the base had it already
and it was not stored. -/
theorem holdsIn_addToPermutation (i : Nat) (hindex : index < a.permutationCount) :
    (a.addToPermutation i g).HoldsIn index f ↔ a.HoldsIn index f ∨ (index = i ∧ f = g) := by
  -- a field of the base is not stored again, but it holds in the permutation all the same
  by_cases hbase : g ∈ a.base
  · rw [addToPermutation, if_pos hbase]
    refine ⟨Or.inl, fun h => h.elim id ?_⟩
    rintro ⟨-, rfl⟩
    exact Or.inl hbase
  · have hown : (a.addToPermutation i g).own index =
        if i = index then addField (a.own index) g else a.own index := by
      have hget : a.permutations[index]? = some a.permutations[index] :=
        List.getElem?_eq_getElem hindex
      rw [addToPermutation, if_neg hbase, own, own, List.getElem?_modify, hget]
      split <;> rfl
    rw [HoldsIn, base_addToPermutation, hown, HoldsIn]
    by_cases hi : i = index
    · rw [if_pos hi, mem_addField, or_assoc]
      simp [hi]
    · rw [if_neg hi]
      simp [Ne.symm hi]

theorem addToPermutations_spec (a : ActiveFields) (f g : Field) (index : Nat)
    (indices : List Nat) :
    let b := indices.foldl (fun a i => a.addToPermutation i g) a
    b.base = a.base ∧ b.permutationCount = a.permutationCount ∧
      (index < a.permutationCount →
        (b.HoldsIn index f ↔ a.HoldsIn index f ∨ (index ∈ indices ∧ f = g))) := by
  induction indices generalizing a with
  | nil => simp
  | cons i rest ih =>
    obtain ⟨hbase, hcount, hholds⟩ := ih (a.addToPermutation i g)
    rw [permutationCount_addToPermutation] at hcount hholds
    refine ⟨hbase.trans (base_addToPermutation i), hcount, fun hindex => ?_⟩
    rw [List.foldl_cons, hholds hindex, holdsIn_addToPermutation i hindex, List.mem_cons]
    tauto

theorem addAllToPermutations_spec (a : ActiveFields) (f : Field) (index : Nat)
    (indices : List Nat) (fields : List Field) :
    let b := fields.foldl (fun a g => indices.foldl (fun a i => a.addToPermutation i g) a) a
    b.base = a.base ∧ b.permutationCount = a.permutationCount ∧
      (index < a.permutationCount →
        (b.HoldsIn index f ↔ a.HoldsIn index f ∨ (index ∈ indices ∧ f ∈ fields))) := by
  induction fields generalizing a with
  | nil => simp
  | cons g rest ih =>
    obtain ⟨hbase', hcount', hholds'⟩ :=
      addToPermutations_spec a f g index indices
    obtain ⟨hbase, hcount, hholds⟩ :=
      ih (indices.foldl (fun a i => a.addToPermutation i g) a)
    rw [hcount'] at hcount hholds
    refine ⟨hbase.trans hbase', hcount, fun hindex => ?_⟩
    rw [List.foldl_cons, hholds hindex, hholds' hindex, List.mem_cons]
    tauto

/-- **What a node switches on**: in the base if it is live everywhere, and in any case in the
permutations it is live in. -/
theorem activate_spec {n : LiveNode} (f : Field) (index : Nat)
    (hn : n.IsSpread a.permutationCount) :
    (a.activate n fields).permutationCount = a.permutationCount ∧
      (f ∈ (a.activate n fields).base ↔
        f ∈ a.base ∨ ((∀ i < a.permutationCount, n.LiveIn i) ∧ f ∈ fields)) ∧
      (index < a.permutationCount →
        ((a.activate n fields).HoldsIn index f ↔
          a.HoldsIn index f ∨ (n.LiveIn index ∧ f ∈ fields))) := by
  -- the node is live everywhere exactly if it has no guard, which decides where its fields go
  rw [← LiveNode.guard?_eq_none_iff hn, activate]
  cases hguard : n.guard? a.permutationCount with
  | none =>
    have hlive := (LiveNode.guard?_eq_none_iff hn).mp hguard
    refine ⟨rfl, ?_, fun hindex => ?_⟩
    · simpa using mem_base_addToBase
    · simpa [hlive index hindex] using holdsIn_addToBase
  | some indices =>
    obtain ⟨hbase, hcount, hholds⟩ :=
      addAllToPermutations_spec a f index indices fields
    refine ⟨hcount, by simp [hbase], fun hindex => ?_⟩
    rw [hholds hindex, LiveNode.mem_of_guard?_eq_some hguard]

end ActiveFields

/-! ### The nodes of a stage -/

/-- A node that is live in the given way asks for a field. -/
def Asked (g : Graph) (stage : Stage) (nodes : List LiveNode) (live : LiveNode → Prop)
    (f : Field) : Prop :=
  ∃ n ∈ nodes, live n ∧ ∃ o, g.operation n.id = .ok o ∧ f ∈ (o.requirements g stage).fields stage

theorem asked_append {g : Graph} {stage : Stage} {nodes : List LiveNode} {n : LiveNode}
    {o : Operation} {live : LiveNode → Prop} {f : Field} (ho : g.operation n.id = .ok o) :
    Asked g stage (nodes ++ [n]) live f ↔
      Asked g stage nodes live f ∨ (live n ∧ f ∈ (o.requirements g stage).fields stage) := by
  constructor
  · rintro ⟨m, hm, hlive, o', ho', hf⟩
    rcases List.mem_append.mp hm with hm | hm
    · exact Or.inl ⟨m, hm, hlive, o', ho', hf⟩
    · rw [List.mem_singleton.mp hm] at hlive ho'
      rw [ho] at ho'
      exact Or.inr ⟨hlive, Except.ok.inj ho' ▸ hf⟩
  · rintro (⟨m, hm, hlive, hf⟩ | ⟨hlive, hf⟩)
    · exact ⟨m, List.mem_append_left _ hm, hlive, hf⟩
    · exact ⟨n, List.mem_append_right _ (List.mem_singleton_self _), hlive, o, ho, hf⟩

/-- The state after some nodes of a stage has exactly what these nodes ask for on top of the
fields before. -/
structure Collected (g : Graph) (stage : Stage) (a : ActiveFields) (nodes : List LiveNode)
    (b : ActiveFields) : Prop where
  /-- No permutation is added or lost. -/
  count : b.permutationCount = a.permutationCount
  /-- The base has what is asked for everywhere. -/
  base : ∀ f, f ∈ b.base ↔
    f ∈ a.base ∨ Asked g stage nodes (fun n => ∀ i < a.permutationCount, n.LiveIn i) f
  /-- A permutation has what is asked for in it. -/
  holdsIn : ∀ index < a.permutationCount, ∀ f, b.HoldsIn index f ↔
    a.HoldsIn index f ∨ Asked g stage nodes (·.LiveIn index) f

namespace Collected

variable {g : Graph} {stage : Stage} {a b : ActiveFields}

theorem nil : Collected g stage a [] a where
  count := rfl
  base f := by simp [Asked]
  holdsIn index _ f := by simp [Asked]

/-- One more node. -/
theorem activate {nodes : List LiveNode} {n : LiveNode} {o : Operation}
    (h : Collected g stage a nodes b) (hn : n.IsSpread a.permutationCount)
    (ho : g.operation n.id = .ok o) :
    Collected g stage a (nodes ++ [n])
      (b.activate n ((o.requirements g stage).fields stage)) := by
  rw [← h.count] at hn
  constructor
  · exact (ActiveFields.activate_spec .graphPixel 0 hn).1.trans h.count
  · intro f
    rw [(ActiveFields.activate_spec f 0 hn).2.1, h.base f, asked_append ho, h.count,
      or_assoc]
  · intro index hindex f
    rw [(ActiveFields.activate_spec f index hn).2.2 (h.count ▸ hindex), h.holdsIn index hindex f,
      asked_append ho, or_assoc]

end Collected

/-- The fields after a stage. -/
theorem stageNodes_spec {g : Graph} {output : String} {slots : Option (List String)}
    {ks : Keywords} {stage : Stage} {a b : ActiveFields} {s : StageNodes}
    (h : stageNodes g output slots ks stage a = .ok (s, b)) :
    liveNodes g output slots ks a.permutationCount = .ok s.nodes ∧
      Collected g stage a s.nodes b := by
  obtain ⟨nodes, hnodes, h⟩ := Outcome.bind_eq_ok_iff.mp h
  obtain ⟨⟨b', r⟩, hfold, h⟩ := Outcome.bind_eq_ok_iff.mp h
  obtain ⟨rfl, rfl⟩ := Prod.mk.inj (Outcome.pure_eq_ok_iff.mp h)
  have hspread := (liveNodes_spec hnodes).2.1
  refine ⟨hnodes, ?_⟩
  refine Outcome.foldlM_invariant (fun done state => Collected g stage a done state.1)
    ?_ .nil hfold
  intro done state n state' hn hdone hstep
  obtain ⟨o, ho, hstep⟩ := Outcome.bind_eq_ok_iff.mp hstep
  rw [← Outcome.pure_eq_ok_iff.mp hstep]
  exact hdone.activate (hspread n hn) ho

/-! ### The whole pass -/

/-- A pass starts with a field, or a node that is live in the given way asks for it. -/
def Requested (g : Graph) (o : Operation) (p : Pass) (mode : Mode) (r : PassFields)
    (live : LiveNode → Prop) (f : Field) : Prop :=
  f ∈ seedFields o p mode ∨ ∃ stage, Asked g stage (r.stage stage).nodes live f

variable {g : Graph} {output : String} {o : Operation} {p : Pass} {mode : Mode} {ks : Keywords}
  {r : PassFields}

/-- The fields that the stages of a pass build on. -/
def startFields (o : Operation) (p : Pass) (mode : Mode) (ks : Keywords) : ActiveFields :=
  (ActiveFields.new ks.permutationCount).addToBase (seedFields o p mode)

theorem mem_base_startFields {f : Field} :
    f ∈ (startFields o p mode ks).base ↔ f ∈ seedFields o p mode := by
  rw [startFields, ActiveFields.mem_base_addToBase]
  exact or_iff_right List.not_mem_nil

theorem holdsIn_startFields {index : Nat} {f : Field} :
    (startFields o p mode ks).HoldsIn index f ↔ f ∈ seedFields o p mode := by
  have hown : (startFields o p mode ks).own index = [] := ActiveFields.own_new _ index
  rw [ActiveFields.HoldsIn, hown, mem_base_startFields]
  exact or_iff_left List.not_mem_nil

theorem permutationCount_startFields : (startFields o p mode ks).permutationCount =
    if 1 < ks.permutationCount then ks.permutationCount else 0 := by
  change (if 1 < ks.permutationCount then List.replicate ks.permutationCount []
    else [] : List (List Field)).length = _
  split
  · exact List.length_replicate
  · rfl

/-- The two stages of a pass, each with the fields it leaves behind. -/
theorem passFields_stages (h : passFields g output p mode ks = .ok r) :
    ∃ o a b, g.operation output = .ok o ∧
      (if evaluatesVertex o p then
        stageNodes g output (followedSlots o p .vertex) ks .vertex (startFields o p mode ks) =
          .ok (r.vertex, a)
      else r.vertex = .empty ∧ a = startFields o p mode ks) ∧
      stageNodes g output (followedSlots o p .pixel) ks .pixel a = .ok (r.pixel, b) ∧
      r.active = b.propagate p.fieldDependencies := by
  obtain ⟨o, ho, h⟩ := Outcome.bind_eq_ok_iff.mp h
  dsimp only at h
  by_cases hv : evaluatesVertex o p = true
  · rw [if_pos hv] at h
    obtain ⟨⟨vertex, a⟩, hvertex, h⟩ := Outcome.bind_eq_ok_iff.mp h
    obtain ⟨⟨pixel, b⟩, hpixel, h⟩ := Outcome.bind_eq_ok_iff.mp h
    rw [← Outcome.pure_eq_ok_iff.mp h]
    exact ⟨o, a, b, ho, by rw [if_pos hv]; exact hvertex, hpixel, rfl⟩
  · rw [if_neg hv] at h
    obtain ⟨⟨vertex, a⟩, hvertex, h⟩ := Outcome.bind_eq_ok_iff.mp h
    obtain ⟨⟨pixel, b⟩, hpixel, h⟩ := Outcome.bind_eq_ok_iff.mp h
    obtain ⟨rfl, rfl⟩ := Prod.mk.inj (Except.ok.inj hvertex)
    rw [← Outcome.pure_eq_ok_iff.mp h]
    exact ⟨o, _, b, ho, by rw [if_neg hv]; exact ⟨rfl, rfl⟩, hpixel, rfl⟩

theorem evaluatesVertex_iff :
    evaluatesVertex o p = true ↔ o.isMaster = true ∧ p.vertexSlots ≠ [] := by
  rw [evaluatesVertex, Bool.and_eq_true, Bool.not_eq_true', List.isEmpty_eq_false_iff]

theorem requested_iff {live : LiveNode → Prop} {f : Field} :
    Requested g o p mode r live f ↔
      (f ∈ seedFields o p mode ∨ Asked g .vertex r.vertex.nodes live f) ∨
        Asked g .pixel r.pixel.nodes live f := by
  rw [or_assoc]
  refine or_congr_right ⟨?_, ?_⟩
  · rintro ⟨stage, h⟩
    cases stage with
    | vertex => exact Or.inl h
    | pixel => exact Or.inr h
  · rintro (h | h)
    · exact ⟨.vertex, h⟩
    · exact ⟨.pixel, h⟩

/-- The nodes of the stages, and the fields before and after each of them. -/
theorem passFields_collected (h : passFields g output p mode ks = .ok r) :
    ∃ o a b, g.operation output = .ok o ∧
      (if o.isMaster = true ∧ p.vertexSlots ≠ [] then
        liveNodes g output (some p.vertexSlots) ks (startFields o p mode ks).permutationCount =
          .ok r.vertex.nodes
      else r.vertex.nodes = []) ∧
      Collected g .vertex (startFields o p mode ks) r.vertex.nodes a ∧
      liveNodes g output (followedSlots o p .pixel) ks (startFields o p mode ks).permutationCount =
        .ok r.pixel.nodes ∧
      Collected g .pixel a r.pixel.nodes b ∧
      r.active = b.propagate p.fieldDependencies ∧
      r.active.permutationCount = (startFields o p mode ks).permutationCount := by
  obtain ⟨o, a, b, ho, hvertex, hpixel, hactive⟩ := passFields_stages h
  -- a stage that is left out has no nodes and leaves the fields as they are
  have hnodes : (if o.isMaster = true ∧ p.vertexSlots ≠ [] then
        liveNodes g output (some p.vertexSlots) ks (startFields o p mode ks).permutationCount =
          .ok r.vertex.nodes
      else r.vertex.nodes = []) ∧
      Collected g .vertex (startFields o p mode ks) r.vertex.nodes a := by
    by_cases hv : evaluatesVertex o p = true
    · rw [if_pos hv] at hvertex
      rw [if_pos (evaluatesVertex_iff.mp hv)]
      have := stageNodes_spec hvertex
      rwa [followedSlots, if_pos (evaluatesVertex_iff.mp hv).1] at this
    · rw [if_neg hv] at hvertex
      rw [if_neg (mt evaluatesVertex_iff.mpr hv), hvertex.1, hvertex.2]
      exact ⟨rfl, .nil⟩
  obtain ⟨hvertexNodes, ha⟩ := hnodes
  obtain ⟨hpixelNodes, hb⟩ := stageNodes_spec hpixel
  rw [ha.count] at hpixelNodes
  refine ⟨o, a, b, ho, hvertexNodes, ha, hpixelNodes, hb, hactive, ?_⟩
  rw [hactive, ActiveFields.permutationCount_propagate, hb.count, ha.count]

/-- The nodes of each stage of a pass, and the number of permutations they are spread over. -/
theorem passFields_liveNodes (h : passFields g output p mode ks = .ok r) (stage : Stage) :
    ∃ o, g.operation output = .ok o ∧
      r.active.permutationCount = (if 1 < ks.permutationCount then ks.permutationCount else 0) ∧
      (liveNodes g output (followedSlots o p stage) ks r.active.permutationCount =
          .ok (r.stage stage).nodes ∨
        (r.stage stage).nodes = [] ∧ (o.isMaster = true → p.slots stage = [])) := by
  obtain ⟨o, a, b, ho, hvertex, -, hpixel, -, -, hcount⟩ := passFields_collected h
  refine ⟨o, ho, hcount.trans permutationCount_startFields, ?_⟩
  cases stage with
  | pixel => exact Or.inl (hcount ▸ hpixel)
  | vertex =>
    rw [hcount]
    by_cases hv : o.isMaster = true ∧ p.vertexSlots ≠ []
    · rw [if_pos hv] at hvertex
      rw [followedSlots, if_pos hv.1]
      exact Or.inl hvertex
    · rw [if_neg hv] at hvertex
      exact Or.inr ⟨hvertex, fun hmaster => by_contra fun hne => hv ⟨hmaster, hne⟩⟩

/-- The permutations of a pass are those of the keywords, unless there are none. -/
theorem permutationCount_of_passFields (h : passFields g output p mode ks = .ok r) :
    r.active.permutationCount = 0 ∨ r.active.permutationCount = ks.permutationCount := by
  obtain ⟨-, -, hcount, -⟩ := passFields_liveNodes h .pixel
  rw [hcount]
  split
  · exact Or.inr rfl
  · exact Or.inl rfl

/-- The permutations that the nodes of a stage are live in are cut out of those of the pass. -/
theorem isSpread_of_passFields (h : passFields g output p mode ks = .ok r) (stage : Stage) :
    ∀ n ∈ (r.stage stage).nodes, n.IsSpread r.active.permutationCount := by
  obtain ⟨_, -, -, hnodes | ⟨hnil, -⟩⟩ := passFields_liveNodes h stage
  · exact (liveNodes_spec hnodes).2.1
  · rw [hnil]
    exact List.forall_mem_nil _

/-- **Membership in the active fields of a pass is exact.**  Each permutation has the closure
of what the pass starts with and what the nodes live in it ask for, and the base has the
closure of what is asked for everywhere; with at most one permutation there is only the base,
and every node counts.  The vertex stage has nodes only below a master node, in a pass with
vertex slots. -/
theorem mem_passFields_iff (h : passFields g output p mode ks = .ok r) :
    ∃ o, g.operation output = .ok o ∧
      (if o.isMaster = true ∧ p.vertexSlots ≠ [] then
        liveNodes g output (some p.vertexSlots) ks r.active.permutationCount = .ok r.vertex.nodes
      else r.vertex.nodes = []) ∧
      liveNodes g output (if o.isMaster then some p.pixelSlots else none) ks
        r.active.permutationCount = .ok r.pixel.nodes ∧
      (2 ≤ ks.permutationCount → r.active.permutationCount = ks.permutationCount ∧
        (∀ index < ks.permutationCount, ∃ i, r.active.instance? index = some i ∧
          ∀ f, f ∈ i.fields ↔
            FieldClosure p.fieldDependencies (Requested g o p mode r (·.LiveIn index)) f) ∧
        ∀ f, f ∈ r.active.baseInstance.fields ↔
          FieldClosure p.fieldDependencies
            (Requested g o p mode r fun n => ∀ index < ks.permutationCount, n.LiveIn index) f) ∧
      (ks.permutationCount ≤ 1 → r.active.permutationCount = 0 ∧
        ∀ f, f ∈ r.active.baseInstance.fields ↔
          FieldClosure p.fieldDependencies (Requested g o p mode r fun _ => True) f) := by
  obtain ⟨o, a, b, ho, hvertex, ha, hpixel, hb, hactive, hcount⟩ := passFields_collected h
  have hbase : ∀ f, f ∈ r.active.baseInstance.fields ↔ FieldClosure p.fieldDependencies
      (Requested g o p mode r fun n => ∀ i < r.active.permutationCount, n.LiveIn i) f := by
    intro f
    rw [hactive]
    refine ActiveFields.mem_base_propagate_iff.trans (FieldClosure.congr fun f => ?_)
    rw [← hactive, hb.base, ha.base, ha.count, hcount, mem_base_startFields]
    exact requested_iff.symm
  have hholds : ∀ index < r.active.permutationCount, ∀ f, r.active.HoldsIn index f ↔
      FieldClosure p.fieldDependencies (Requested g o p mode r (·.LiveIn index)) f := by
    intro index hindex f
    rw [hcount] at hindex
    have hindexA := ha.count.symm ▸ hindex
    have hindexB := hb.count.symm ▸ hindexA
    rw [hactive]
    refine (ActiveFields.holdsIn_propagate_iff hindexB).trans (FieldClosure.congr fun f => ?_)
    rw [hb.holdsIn index hindexA, ha.holdsIn index hindex, holdsIn_startFields]
    exact requested_iff.symm
  refine ⟨o, ho, hcount ▸ hvertex, hcount ▸ hpixel, ?_, ?_⟩
  · intro htwo
    rw [permutationCount_startFields, if_pos (by omega)] at hcount
    refine ⟨hcount, fun index hindex => ?_, hcount ▸ hbase⟩
    have hindex : index < r.active.permutationCount := hcount ▸ hindex
    obtain ⟨i, hi, hfields⟩ := ActiveFields.exists_instance?_iff hindex
    exact ⟨i, hi, fun f => (hfields f).trans (hholds index hindex f)⟩
  · intro hone
    rw [permutationCount_startFields, if_neg (by omega)] at hcount
    refine ⟨hcount, fun f => (hbase f).trans (FieldClosure.congr fun f => ?_)⟩
    simp [hcount]

/-! ### A pass with two permutations -/

/-- A master node whose colour is chosen by a keyword: a texture coordinate while it is on, a
constant while it is off. -/
def detailGraph : Graph where
  version := "1"
  metadata := { name := "Detail" }
  nodes := [
    { id := "master", type := "Master", inputs := [{ id := "Position" }, { id := "BaseColor" }] },
    { id := "k", type := "Keyword", params := [("keyword", .text "_DETAIL")],
      inputs := [{ id := "On" }, { id := "Off" }] },
    { id := "uv", type := "UV" },
    { id := "color", type := "Color" }]
  connections := [
    ⟨"c1", ⟨"k", "Out"⟩, ⟨"master", "BaseColor"⟩⟩,
    ⟨"c2", ⟨"uv", "Out"⟩, ⟨"k", "On"⟩⟩,
    ⟨"c3", ⟨"color", "Out"⟩, ⟨"k", "Off"⟩⟩]
  keywords := [{ referenceName := "_DETAIL" }]

/-- A pass of that graph, in which the coordinate is passed on from the vertices. -/
def detailPass : Pass where
  vertexSlots := ["Position"]
  pixelSlots := ["BaseColor"]
  requiredFields := [.ofTag "Varyings" "positionCS"]
  fieldDependencies := [
    ⟨.ofTag "Varyings" "texCoord0", .ofTag "Attributes" "uv0"⟩,
    ⟨.ofTag "SurfaceDescriptionInputs" "uv0", .ofTag "Varyings" "texCoord0"⟩]

theorem mem_passFields_iff_detail :
    ∃ r, passFields detailGraph "master" detailPass .final detailGraph.keywords = .ok r ∧
      ∃ o, detailGraph.operation "master" = .ok o ∧
        ∀ index < 2, ∃ i, r.active.instance? index = some i ∧
          ∀ f, f ∈ i.fields ↔ FieldClosure detailPass.fieldDependencies
            (Requested detailGraph o detailPass .final r (·.LiveIn index)) f := by
  obtain ⟨r, h⟩ : ∃ r, passFields detailGraph "master" detailPass .final detailGraph.keywords =
      .ok r := Outcome.exists_of_isOk (by decide +kernel)
  obtain ⟨o, ho, -, -, htwo, -⟩ := mem_passFields_iff h
  exact ⟨r, h, o, ho, (htwo (by decide +kernel)).2.1⟩

end MaterialShader
