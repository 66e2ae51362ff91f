import Mathlib.Data.List.Range
import MaterialShader.Pass.Interpolator

/-!
# The layout of a packed struct

Members go into slots one after the other, each into the first slot that still has room, so a
slot keeps growing after members were put in it.  What stays true all along is that a member
ends inside what is taken of its slot so far, and that a later one begins at or behind that
end.  So the members of a slot never share a component, however its width grows.

## Main definitions

* `PackedMember.positions` — the components of its slot that a member has, by their numbers.
* `Packing.IsLayout` — members lie apart from each other inside their slots.

## Main results

* `Packing.IsLayout.place` — one more member keeps the members apart.
* `StructDescriptor.isLayout_packing`, `StructDescriptor.perm_packing` — the packing of a struct
  is such a layout, and each active member is in it once.
-/

namespace MaterialShader

open Shading (Lane)

/-! ### Components -/

/-- The number of a component. -/
def laneIndex : Lane → Nat
  | .x => 0
  | .y => 1
  | .z => 2
  | .w => 3

/-- The components of its slot that a member has, by their numbers. -/
def PackedMember.positions (m : PackedMember) : List Nat := m.lanes.map laneIndex

/-- Components that lie inside a slot are those from the first one on. -/
theorem PackedMember.positions_eq {m : PackedMember} (h : m.start + m.width ≤ Packing.slotSize) :
    m.positions = List.range' m.start m.width := by
  have hall : ∀ start < 5, ∀ width < 5, start + width ≤ 4 →
      ((Lane.all.drop start).take width).map laneIndex = List.range' start width := by decide
  have hsize : m.start + m.width ≤ 4 := h
  exact hall m.start (by omega) m.width (by omega) hsize

theorem floatComponents?_bounds {type : String} {width : Nat}
    (h : floatComponents? type = some width) : 1 ≤ width ∧ width ≤ Packing.slotSize := by
  obtain ⟨before, after, htable, -⟩ := List.lookup_eq_some_iff.mp h
  have hwidth : width ∈ (before ++ (resolvePrecision type, width) :: after).map Prod.snd := by simp
  rw [← htable] at hwidth
  simp only [List.map_cons, List.map_nil, List.mem_cons, List.not_mem_nil, or_false] at hwidth
  unfold Packing.slotSize
  omega

namespace Packing

variable {p : Packing} {d : FieldDescriptor} {width : Nat}

theorem type_of_packedWidth? (h : packedWidth? d = some width) :
    d.type.bind floatComponents? = some width := by
  unfold packedWidth? at h
  split at h
  · exact absurd h (by simp)
  · exact h

theorem packedWidth?_bounds (h : packedWidth? d = some width) : 1 ≤ width ∧ width ≤ slotSize := by
  obtain ⟨type, -, htype⟩ := Option.bind_eq_some_iff.mp (type_of_packedWidth? h)
  exact floatComponents?_bounds htype

/-! ### The invariant -/

/-- Members lie apart from each other inside the slots they are in, and which members are in
slots depends on their types alone. -/
structure IsLayout (p : Packing) : Prop where
  /-- Every slot has from one to four components. -/
  widths : ∀ w ∈ p.widths, 1 ≤ w ∧ w ≤ slotSize
  direct : ∀ d ∈ p.direct, packedWidth? d = none
  packed : ∀ m ∈ p.packed, packedWidth? m.field = some m.width
  /-- A member ends inside what is taken of its slot. -/
  inside : ∀ m ∈ p.packed, ∃ w, p.widths[m.slot]? = some w ∧ m.start + m.width ≤ w
  /-- A later member begins behind the earlier ones of its slot. -/
  apart : p.packed.Pairwise fun m n => m.slot = n.slot → m.start + m.width ≤ n.start

theorem isLayout_empty : IsLayout .empty where
  widths := List.forall_mem_nil _
  direct := List.forall_mem_nil _
  packed := List.forall_mem_nil _
  inside := List.forall_mem_nil _
  apart := List.Pairwise.nil

/-- A member goes behind what is taken of a slot, or into a slot of its own. -/
theorem pack_eq (p : Packing) (d : FieldDescriptor) (width : Nat) :
    ∃ slot start, (p.pack d width).packed = p.packed ++ [⟨d, slot, start, width⟩] ∧
      (p.pack d width).direct = p.direct ∧
      (p.widths[slot]? = some start ∧ start + width ≤ slotSize ∧
          (p.pack d width).widths = p.widths.modify slot (· + width) ∨
        slot = p.widths.length ∧ start = 0 ∧
          (p.pack d width).widths = p.widths ++ [width]) := by
  unfold pack
  split
  · next slot hslot =>
    obtain ⟨hlt, hroom, -⟩ := List.findIdx?_eq_some_iff_getElem.mp hslot
    have hstart : p.widths.getD slot 0 = p.widths[slot] := by
      rw [List.getD_eq_getElem?_getD, List.getElem?_eq_getElem hlt, Option.getD_some]
    refine ⟨slot, p.widths.getD slot 0, rfl, rfl, Or.inl ⟨?_, ?_, rfl⟩⟩
    · rw [hstart, List.getElem?_eq_getElem hlt]
    · rw [hstart]
      exact of_decide_eq_true hroom
  · exact ⟨p.widths.length, 0, rfl, rfl, Or.inr ⟨rfl, rfl, rfl⟩⟩

namespace IsLayout

/-- A member in a slot keeps the members apart. -/
theorem pack (h : p.IsLayout) (hd : packedWidth? d = some width) : (p.pack d width).IsLayout := by
  obtain ⟨hpos, hsize⟩ := packedWidth?_bounds hd
  obtain ⟨slot, start, hpacked, hdirect, hslot⟩ := p.pack_eq d width
  -- whatever is taken of a slot stays taken
  have hgrows : ∀ (i w : Nat), p.widths[i]? = some w →
      ∃ w', (p.pack d width).widths[i]? = some w' ∧ w ≤ w' := by
    intro i w hw
    rcases hslot with ⟨-, -, hwidths⟩ | ⟨-, -, hwidths⟩
    · rw [hwidths, List.getElem?_modify, hw]
      refine ⟨_, rfl, ?_⟩
      split <;> simp
    · have hlt := (List.getElem?_eq_some_iff.mp hw).1
      exact ⟨w, by rw [hwidths, List.getElem?_append_left hlt, hw], le_rfl⟩
  exact {
    widths := by
      intro w hw
      obtain ⟨i, hi⟩ := List.mem_iff_getElem?.mp hw
      rcases hslot with ⟨hstart, hroom, hwidths⟩ | ⟨-, -, hwidths⟩
      · rw [hwidths, List.getElem?_modify] at hi
        obtain ⟨v, hv, hvw⟩ := Option.map_eq_some_iff.mp hi
        obtain ⟨hv₁, hv₄⟩ := h.widths v (List.mem_of_getElem? hv)
        by_cases hsame : slot = i
        · rw [hsame, hv] at hstart
          rw [if_pos hsame, Option.some.inj hstart] at hvw
          omega
        · rw [if_neg hsame] at hvw
          exact hvw ▸ ⟨hv₁, hv₄⟩
      · rw [hwidths] at hw
        rcases List.mem_append.mp hw with hw | hw
        · exact h.widths w hw
        · rw [List.mem_singleton.mp hw]
          exact ⟨hpos, hsize⟩
    direct := hdirect ▸ h.direct
    packed := by
      rw [hpacked]
      exact List.forall_mem_append.mpr ⟨h.packed, List.forall_mem_singleton.mpr hd⟩
    inside := by
      rw [hpacked]
      refine List.forall_mem_append.mpr ⟨fun m hm => ?_, List.forall_mem_singleton.mpr ?_⟩
      · obtain ⟨w, hw, hend⟩ := h.inside m hm
        obtain ⟨w', hw', hle⟩ := hgrows m.slot w hw
        exact ⟨w', hw', hend.trans hle⟩
      · rcases hslot with ⟨hstart, -, hwidths⟩ | ⟨rfl, rfl, hwidths⟩
        · exact ⟨start + width, by simp [hwidths, hstart], le_rfl⟩
        · exact ⟨width, by simp [hwidths], by simp⟩
    apart := by
      rw [hpacked]
      refine List.pairwise_append.mpr ⟨h.apart, List.pairwise_singleton _ _, ?_⟩
      intro m hm n hn hsame
      obtain rfl := List.mem_singleton.mp hn
      obtain ⟨w, hw, hend⟩ := h.inside m hm
      rw [hsame] at hw
      rcases hslot with ⟨hstart, -, -⟩ | ⟨rfl, -, -⟩
      · rw [hstart] at hw
        exact hend.trans_eq (Option.some.inj hw).symm
      · exact absurd (List.getElem?_eq_some_iff.mp hw).1 (lt_irrefl _) }

/-- **One more member** keeps the members apart. -/
theorem place (h : p.IsLayout) (d : FieldDescriptor) : (p.place d).IsLayout := by
  unfold Packing.place
  split
  · next hd => exact h.pack hd
  · next hd =>
    exact { h with direct := List.forall_mem_append.mpr ⟨h.direct, List.forall_mem_singleton.mpr hd⟩ }

theorem foldl_place (h : p.IsLayout) (fields : List FieldDescriptor) :
    (fields.foldl Packing.place p).IsLayout := by
  induction fields generalizing p with
  | nil => exact h
  | cons d fields ih => exact ih (h.place d)

end IsLayout

/-! ### Members -/

/-- The members of a packing, those kept as they are first. -/
def members (p : Packing) : List FieldDescriptor := p.direct ++ p.packed.map PackedMember.field

/-- One more member is in the packing once. -/
theorem perm_place (p : Packing) (d : FieldDescriptor) :
    (p.place d).members.Perm (p.members ++ [d]) := by
  unfold place
  split
  · next width _ =>
    obtain ⟨slot, start, hpacked, hdirect, -⟩ := p.pack_eq d width
    rw [members, hpacked, hdirect, List.map_append, ← List.append_assoc]
    exact List.Perm.refl _
  · rw [members, members, List.append_assoc, List.append_assoc]
    exact List.perm_append_comm.append_left p.direct

theorem perm_foldl_place (p : Packing) (fields : List FieldDescriptor) :
    (fields.foldl place p).members.Perm (p.members ++ fields) := by
  induction fields generalizing p with
  | nil => simp
  | cons d fields ih =>
    refine (ih (p.place d)).trans ?_
    have := (p.perm_place d).append_right fields
    rwa [List.append_assoc] at this

end Packing

/-! ### The packing of a struct -/

namespace StructDescriptor

/-- The members of a struct that are active. -/
def activeMembers (s : StructDescriptor) (active : List Field) : List FieldDescriptor :=
  s.fields.filter fun d => decide (d.field ∈ active)

theorem mem_activeMembers {s : StructDescriptor} {active : List Field} {d : FieldDescriptor} :
    d ∈ s.activeMembers active ↔ d ∈ s.fields ∧ d.field ∈ active := by
  rw [activeMembers, List.mem_filter, decide_eq_true_eq]

/-- **The packing of a struct** keeps its members apart. -/
theorem isLayout_packing (s : StructDescriptor) (active : List Field) :
    (s.packing active).IsLayout := Packing.isLayout_empty.foldl_place _

/-- **Each active member** is in the packing of its struct once. -/
theorem perm_packing (s : StructDescriptor) (active : List Field) :
    (s.packing active).members.Perm (s.activeMembers active) :=
  Packing.perm_foldl_place .empty _

end StructDescriptor

end MaterialShader
