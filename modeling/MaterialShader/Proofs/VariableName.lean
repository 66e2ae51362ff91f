import Mathlib.Data.List.Nodup
import Mathlib.Data.List.Pairwise
import MaterialShader.Proofs.NodeType
import MaterialShader.Proofs.StageOrder

/-!
# Names of variables

The variable of an output is spelled from three parts, the type of the node, its id and the
output, with an underscore in front of each.  An id may hold underscores of its own, and becomes
an identifier by getting more of them.  The two other parts hold none as long as the type is one
of the known ones and the output one that code declares, so the first and the last underscore
between the parts can be found again and the name can be taken apart.  What cannot be found again
is the id behind its identifier.

## Main definitions

* `Text.IsPart` — a text that stays as it is in the name of a variable, and holds no underscore.
* `Operation.declaredVariables` — the variables that the code of a node declares.

## Main results

* `Operation.variable_eq_iff` — when two outputs have the same variable.
* `nodup_flatMap_declaredVariables_iff` — when nodes declare no variable twice.
-/

namespace MaterialShader

/-! ### Parts of names -/

namespace Text

/-- A part of the name of a variable that can be found again: it is an identifier already and
holds no underscore. -/
def IsPart (s : String) : Prop := identifier s = s ∧ '_' ∉ s.toList

instance (s : String) : Decidable (IsPart s) := inferInstanceAs (Decidable (_ ∧ _))

/-- What stands before a separator that it does not hold can be cut off. -/
theorem append_separator_inj {c : Char} {a b rest rest' : List Char} (ha : c ∉ a) (hb : c ∉ b) :
    a ++ c :: rest = b ++ c :: rest' ↔ a = b ∧ rest = rest' := by
  constructor
  · intro h
    have hcut : ∀ l rest : List Char, c ∉ l → (l ++ c :: rest).takeWhile (· != c) = l := by
      intro l rest hl
      have hall : ∀ d ∈ l, (d != c) = true := fun d hd =>
        bne_iff_ne.mpr (ne_of_mem_of_not_mem hd hl)
      rw [List.takeWhile_append_of_pos hall, List.takeWhile_cons_of_neg (by simp),
        List.append_nil]
    obtain rfl : a = b := by rw [← hcut a rest ha, h, hcut b rest' hb]
    exact ⟨rfl, List.tail_eq_of_cons_eq (List.append_cancel_left h)⟩
  · rintro ⟨rfl, rfl⟩
    rfl

/-- What stands behind a separator that it does not hold can be cut off. -/
theorem separator_append_inj {c : Char} {a b rest rest' : List Char} (hrest : c ∉ rest)
    (hrest' : c ∉ rest') : a ++ c :: rest = b ++ c :: rest' ↔ a = b ∧ rest = rest' := by
  -- read from the end, it stands before the separator
  rw [← List.reverse_inj, List.reverse_append, List.reverse_append, List.reverse_cons,
    List.reverse_cons, List.append_assoc, List.append_assoc, List.singleton_append,
    List.singleton_append, append_separator_inj (mt List.mem_reverse.mp hrest)
      (mt List.mem_reverse.mp hrest'), List.reverse_inj, List.reverse_inj, and_comm]

end Text

open Text (IsPart)

theorem Node.toList_variable (n : Node) (socket : String) :
    (n.variable socket).toList = '_' :: ((Text.identifier n.type).toList ++
      '_' :: ((Text.identifier n.id).toList ++ '_' :: (Text.identifier socket).toList)) := by
  simp [Node.variable]

/-- The name of a variable gives back the two parts of it that hold no underscore, and the
identifier of the id. -/
theorem Node.variable_eq_iff {n m : Node} {a b : String} (hn : IsPart n.type) (hm : IsPart m.type)
    (ha : IsPart a) (hb : IsPart b) :
    n.variable a = m.variable b ↔
      n.type = m.type ∧ Text.identifier n.id = Text.identifier m.id ∧ a = b := by
  rw [← String.toList_inj, n.toList_variable, m.toList_variable, List.cons_inj_right, hn.1, hm.1,
    ha.1, hb.1, Text.append_separator_inj hn.2 hm.2, Text.separator_append_inj ha.2 hb.2,
    String.toList_inj, String.toList_inj, String.toList_inj]

/-- What holds of every key of a table holds of a key that is found. -/
theorem forall_of_lookup {β : Type} {P : String → Prop} {entries : List (String × β)}
    {key : String} {value : β} (hall : ∀ p ∈ entries, P p.1)
    (h : entries.lookup key = some value) : P key := by
  obtain ⟨before, after, hentries, -⟩ := List.lookup_eq_some_iff.mp h
  exact hall (key, value) (hentries ▸ List.mem_append_right _ List.mem_cons_self)

theorem NodeKind.isPart_of_ofTypeName? {name : String} {kind : NodeKind}
    (h : ofTypeName? name = some kind) : IsPart name :=
  forall_of_lookup (by decide) h

/-! ### The variables of a node -/

theorem Graph.kind_of_operation {g : Graph} {id : String} {o : Operation}
    (h : g.operation id = .ok o) : NodeKind.ofTypeName? o.node.type = some o.kind := by
  obtain ⟨node, -, ho⟩ := Outcome.bind_eq_ok_iff.mp h
  rw [Operation.node_of_ofNode ho]
  exact Operation.kind_of_ofNode ho

namespace Operation

variable {o u : Operation} {a b : String}

/-- The variables that the code of a node declares. -/
def declaredVariables (o : Operation) : List String := o.declaredOutputs.map o.node.variable

theorem isPart_of_mem_declaredOutputs (h : a ∈ o.declaredOutputs) : IsPart a := by
  have hall : ∀ a ∈ o.declaredOutputs, IsPart a := by
    unfold declaredOutputs
    cases o.kind <;> decide
  exact hall a h

theorem nodup_declaredOutputs (o : Operation) : o.declaredOutputs.Nodup := by
  unfold declaredOutputs
  cases o.kind <;> decide

theorem declaredOutputs_eq_nil_iff : o.declaredOutputs = [] ↔ o.isMaster = true := by
  unfold declaredOutputs isMaster
  cases o.kind <;> decide

/-- **When two outputs have the same variable**: they are the same output of nodes of one type
whose ids have one identifier. -/
theorem variable_eq_iff (ho : NodeKind.ofTypeName? o.node.type = some o.kind)
    (hu : NodeKind.ofTypeName? u.node.type = some u.kind) (ha : a ∈ o.declaredOutputs)
    (hb : b ∈ u.declaredOutputs) :
    o.node.variable a = u.node.variable b ↔ o.node.type = u.node.type ∧
      Text.identifier o.node.id = Text.identifier u.node.id ∧ a = b :=
  Node.variable_eq_iff (NodeKind.isPart_of_ofTypeName? ho) (NodeKind.isPart_of_ofTypeName? hu)
    (isPart_of_mem_declaredOutputs ha) (isPart_of_mem_declaredOutputs hb)

/-- The variables of one node differ. -/
theorem nodup_declaredVariables (ho : NodeKind.ofTypeName? o.node.type = some o.kind) :
    o.declaredVariables.Nodup :=
  List.Nodup.map_on (fun _ ha _ hb h => ((variable_eq_iff ho ho ha hb).mp h).2.2)
    o.nodup_declaredOutputs

/-- Two nodes share a variable if they are of one type and their ids have one identifier, unless
they declare none. -/
theorem disjoint_declaredVariables_iff (ho : NodeKind.ofTypeName? o.node.type = some o.kind)
    (hu : NodeKind.ofTypeName? u.node.type = some u.kind) :
    List.Disjoint o.declaredVariables u.declaredVariables ↔
      (o.isMaster = false → o.node.type = u.node.type →
        Text.identifier o.node.id ≠ Text.identifier u.node.id) := by
  constructor
  · intro hdisjoint hmaster htype hid
    have hkind : o.kind = u.kind := Option.some.inj (by rw [← ho, ← hu, htype])
    have houtputs : o.declaredOutputs = u.declaredOutputs := by
      rw [declaredOutputs, declaredOutputs, hkind]
    obtain ⟨a, ha⟩ := List.exists_mem_of_ne_nil o.declaredOutputs fun hnil =>
      absurd (declaredOutputs_eq_nil_iff.mp hnil) (by simp [hmaster])
    have hsame := (variable_eq_iff ho hu ha (houtputs ▸ ha)).mpr ⟨htype, hid, rfl⟩
    exact hdisjoint (List.mem_map_of_mem ha) (hsame ▸ List.mem_map_of_mem (houtputs ▸ ha))
  · intro hdiffer name hname hname'
    obtain ⟨a, ha, rfl⟩ := List.mem_map.mp hname
    obtain ⟨b, hb, hsame⟩ := List.mem_map.mp hname'
    obtain ⟨htype, hid, -⟩ := (variable_eq_iff ho hu ha hb).mp hsame.symm
    refine hdiffer (Bool.eq_false_iff.mpr fun hmaster => ?_) htype hid
    rw [declaredOutputs_eq_nil_iff.mpr hmaster] at ha
    exact List.not_mem_nil ha

end Operation

/-! ### The variables of several nodes -/

/-- **When nodes with different ids declare no variable twice**: as long as those of one type,
which is not the output of the material, have ids with different identifiers. -/
theorem nodup_flatMap_declaredVariables_iff {operations : List Operation}
    (hkinds : ∀ o ∈ operations, NodeKind.ofTypeName? o.node.type = some o.kind)
    (hids : (operations.map fun o => o.node.id).Nodup) :
    (operations.flatMap Operation.declaredVariables).Nodup ↔
      ∀ o ∈ operations, ∀ u ∈ operations, o.isMaster = false → o.node.type = u.node.type →
        Text.identifier o.node.id = Text.identifier u.node.id → o.node.id = u.node.id := by
  have hnodes : ∀ o ∈ operations, ∀ u ∈ operations, o.node.id = u.node.id → o = u :=
    fun o ho u hu hid => List.inj_on_of_nodup_map hids ho hu hid
  rw [List.nodup_flatMap, and_iff_right fun o ho => Operation.nodup_declaredVariables (hkinds o ho)]
  constructor
  · intro hpairs o ho u hu hmaster htype hid
    by_contra hne
    have hsymm : Std.Symm (Function.onFun List.Disjoint Operation.declaredVariables) :=
      ⟨fun _ _ hdisjoint => List.Disjoint.symm hdisjoint⟩
    have hdisjoint := hpairs.forall ho hu fun heq => hne (heq ▸ rfl)
    exact (Operation.disjoint_declaredVariables_iff (hkinds o ho) (hkinds u hu)).mp hdisjoint
      hmaster htype hid
  · intro hall
    refine (List.Nodup.of_map _ hids).pairwise_of_forall_ne fun o ho u hu hne => ?_
    refine (Operation.disjoint_declaredVariables_iff (hkinds o ho) (hkinds u hu)).mpr
      fun hmaster htype hid => hne ?_
    exact hnodes o ho u hu (hall o ho u hu hmaster htype hid)

end MaterialShader
