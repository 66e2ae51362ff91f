import Mathlib.Data.List.Nodup
import Mathlib.Data.List.Pairwise
import MaterialShader.Proofs.DirectiveText
import MaterialShader.Proofs.PackingLayout

/-!
# Packing and unpacking

The functions to and from a packed struct are lists of copies, each from a member of the input
to a member of the output or to some of its components.  Read in this way, unpacking what was
packed gives every active member back.

Since members lie apart from each other in the slots, no copy overwrites what another one has
written.  This has one exception: a member that is kept as it is may be named like a slot, and
the packed struct then has two members of that name.  Such a member is not given back.

## Main definitions

* `Access`, `Copy` — components of a member, and a copy from one struct to another.
* `Contents`, `Copy.run`, `Copy.runAll` — the values of a struct, and what copies do to them.
* `Packing.packCopies`, `Packing.unpackCopies` — the copies of the two functions.

## Main results

* `Packing.pack_eq_code`, `Packing.unpack_eq_code` — the functions are the code of the copies.
* `Copy.runAll_eq` — copies that lie apart do not disturb each other.
* `StructDescriptor.packing_restores` — the layout of a packed struct, and that unpacking undoes
  packing.
* `exists_struct_not_restored` — a member that is named like a slot is lost.
-/

namespace MaterialShader

open Shading (Lane)

/-! ### Copies -/

/-- A member of a struct, or some of its components. -/
structure Access where
  member : String
  /-- The components; without them it is the whole member. -/
  lanes : Option (List Lane) := none
  deriving DecidableEq, Repr

namespace Access

/-- The text of an access. -/
def text (a : Access) : String :=
  match a.lanes with
  | none => a.member
  | some lanes => a.member ++ "." ++ Lane.selection lanes

/-- Which of the accessed components a component of the member is. -/
def index? (a : Access) (component : Nat) : Option Nat :=
  match a.lanes with
  | none => some component
  | some lanes =>
      let positions := lanes.map laneIndex
      if component ∈ positions then some (positions.idxOf component) else none

/-- Which component of the member an accessed component is. -/
def component? (a : Access) (index : Nat) : Option Nat :=
  match a.lanes with
  | none => some index
  | some lanes => (lanes.map laneIndex)[index]?

end Access

/-- A copy from the input of a function to its output, under a condition of the document. -/
structure Copy where
  condition : Option String
  /-- What it writes. -/
  target : Access
  /-- What it reads. -/
  source : Access
  deriving DecidableEq, Repr

/-- The values of a struct, by member and component. -/
abbrev Contents (α : Type) := String → Nat → α

namespace Copy

variable {α : Type} {c : Copy} {copies : List Copy} {member : String} {k j : Nat}

/-- The code of a copy. -/
def code (c : Copy) : List Code :=
  Code.guardedBy c.condition ("output." ++ c.target.text ++ " = input." ++ c.source.text ++ ";")

/-- The component that a copy reads for a component of a member, if it writes that at all. -/
def origin? (c : Copy) (member : String) (component : Nat) : Option Nat :=
  if member = c.target.member then (c.target.index? component).bind c.source.component? else none

/-- The output after a copy whose condition holds. -/
def run (input output : Contents α) (c : Copy) : Contents α := fun member component =>
  match c.origin? member component with
  | some from' => input c.source.member from'
  | none => output member component

/-- The output after some copies. -/
def runAll (input output : Contents α) (copies : List Copy) : Contents α :=
  copies.foldl (run input) output

/-- Two copies write no component both. -/
def Apart (c d : Copy) : Prop := ∀ member component,
  c.origin? member component = none ∨ d.origin? member component = none

theorem runAll_of_untouched (input output : Contents α)
    (h : ∀ c ∈ copies, c.origin? member k = none) :
    runAll input output copies member k = output member k := by
  induction copies generalizing output with
  | nil => rfl
  | cons c copies ih =>
    obtain ⟨hc, hcopies⟩ := List.forall_mem_cons.mp h
    have hrest : runAll input (run input output c) copies member k = run input output c member k :=
      ih _ hcopies
    rw [runAll, List.foldl_cons]
    refine hrest.trans ?_
    rw [run, hc]

/-- **Copies that lie apart** do not disturb each other: what one of them writes is there in the
end. -/
theorem runAll_eq (input output : Contents α) (hapart : copies.Pairwise Apart) (hc : c ∈ copies)
    (horigin : c.origin? member k = some j) :
    runAll input output copies member k = input c.source.member j := by
  obtain ⟨before, after, rfl⟩ := List.append_of_mem hc
  obtain ⟨-, hafter, -⟩ := List.pairwise_append.mp hapart
  have huntouched : ∀ d ∈ after, d.origin? member k = none := by
    intro d hd
    refine ((List.pairwise_cons.mp hafter).1 d hd member k).resolve_left ?_
    rw [horigin]
    exact Option.some_ne_none j
  rw [runAll, List.foldl_append, List.foldl_cons]
  refine (runAll_of_untouched input _ huntouched).trans ?_
  rw [run, horigin]

end Copy

/-! ### The copies of the functions -/

/-- The components of its slot that a member has. -/
def PackedMember.slotAccess (m : PackedMember) : Access := ⟨slotName m.slot, some m.lanes⟩

/-- The copy of a member that is kept as it is. -/
def FieldDescriptor.copy (d : FieldDescriptor) : Copy := ⟨d.preprocessor, ⟨d.name, none⟩, ⟨d.name, none⟩⟩

/-- The copy of a member into its slot. -/
def PackedMember.packCopy (m : PackedMember) : Copy := ⟨none, m.slotAccess, ⟨m.field.name, none⟩⟩

/-- The copy of a member out of its slot. -/
def PackedMember.unpackCopy (m : PackedMember) : Copy := ⟨none, ⟨m.field.name, none⟩, m.slotAccess⟩

namespace Packing

variable {α : Type} {p : Packing}

/-- The copies of the function that packs. -/
def packCopies (p : Packing) : List Copy :=
  p.direct.map FieldDescriptor.copy ++ p.packed.map PackedMember.packCopy

/-- The copies of the function that unpacks. -/
def unpackCopies (p : Packing) : List Copy :=
  p.direct.map FieldDescriptor.copy ++ p.packed.map PackedMember.unpackCopy

/-- The packed form of a struct with some values, where the function starts with others. -/
def packedContents (p : Packing) (start v : Contents α) : Contents α :=
  Copy.runAll v start p.packCopies

/-- The struct that a packed form gives back. -/
def unpackedContents (p : Packing) (start packed : Contents α) : Contents α :=
  Copy.runAll packed start p.unpackCopies

/-- The function that packs is the code of its copies. -/
theorem pack_eq_code (p : Packing) :
    p.copyCode ++ p.packed.map (fun m => .line m.packLine) = p.packCopies.flatMap Copy.code := by
  rw [packCopies, List.flatMap_append, List.flatMap_map, List.flatMap_map]
  exact congrArg (p.copyCode ++ ·) List.map_eq_flatMap

/-- The function that unpacks is the code of its copies. -/
theorem unpack_eq_code (p : Packing) :
    p.copyCode ++ p.packed.map (fun m => .line m.unpackLine) =
      p.unpackCopies.flatMap Copy.code := by
  rw [unpackCopies, List.flatMap_append, List.flatMap_map, List.flatMap_map]
  exact congrArg (p.copyCode ++ ·) List.map_eq_flatMap

/-! ### Where copies write -/

theorem slotName_injective : Function.Injective slotName := Text.numbered_injective "interp"

end Packing

section Origin

variable {d : FieldDescriptor} {m : PackedMember} {member : String} {k : Nat}

theorem origin?_copy (d : FieldDescriptor) (k : Nat) : d.copy.origin? d.name k = some k :=
  if_pos rfl

theorem origin?_packCopy (hk : k < m.positions.length) (hnodup : m.positions.Nodup) :
    m.packCopy.origin? (slotName m.slot) m.positions[k] = some k := by
  have hindex : m.slotAccess.index? m.positions[k] = some k := by
    have hmem : m.positions[k] ∈ m.positions := List.getElem_mem hk
    exact (if_pos hmem).trans (congrArg some (hnodup.idxOf_getElem k hk))
  have horigin : m.packCopy.origin? (slotName m.slot) m.positions[k] =
      (m.slotAccess.index? m.positions[k]).bind (Access.component? ⟨m.field.name, none⟩) :=
    if_pos rfl
  rw [horigin, hindex]
  rfl

theorem origin?_unpackCopy (m : PackedMember) (k : Nat) :
    m.unpackCopy.origin? m.field.name k = m.positions[k]? := if_pos rfl

theorem Copy.apart_of_member {c d : Copy} (h : c.target.member ≠ d.target.member) :
    c.Apart d := by
  intro member component
  by_cases hc : member = c.target.member
  · exact Or.inr (if_neg fun hd => h (hc.symm.trans hd))
  · exact Or.inl (if_neg hc)

/-- Members of one slot that share no component are packed apart. -/
theorem PackedMember.apart_packCopy {m n : PackedMember}
    (h : m.slot = n.slot → m.positions.Disjoint n.positions) :
    m.packCopy.Apart n.packCopy := by
  by_cases hslot : m.slot = n.slot
  · intro member component
    have hnone : ∀ l : PackedMember, component ∉ l.positions →
        l.packCopy.origin? member component = none := by
      intro l hl
      have hindex : l.slotAccess.index? component = none := if_neg hl
      unfold Copy.origin?
      split
      · exact congrArg (Option.bind · _) hindex
      · rfl
    by_cases hm : component ∈ m.positions
    · exact Or.inr (hnone n fun hn => h hslot hm hn)
    · exact Or.inl (hnone m hm)
  · exact Copy.apart_of_member fun heq => hslot (Packing.slotName_injective heq)

end Origin

namespace Packing

variable {α : Type} {p : Packing} {m n : PackedMember}

namespace IsLayout

/-- A member lies inside its slot, from its first component on. -/
theorem positions_eq (h : p.IsLayout) (hm : m ∈ p.packed) :
    m.positions = List.range' m.start m.width := by
  obtain ⟨w, hw, hend⟩ := h.inside m hm
  exact PackedMember.positions_eq (hend.trans (h.widths w (List.mem_of_getElem? hw)).2)

theorem length_lanes (h : p.IsLayout) (hm : m ∈ p.packed) : m.lanes.length = m.width := by
  have hlength := congrArg List.length (h.positions_eq hm)
  rwa [PackedMember.positions, List.length_map, List.length_range'] at hlength

/-- Members of one slot share no component. -/
theorem disjoint_positions (h : p.IsLayout) :
    p.packed.Pairwise fun m n => m.slot = n.slot → m.positions.Disjoint n.positions := by
  refine h.apart.imp_of_mem fun {m n} hm hn hapart hslot k hkm hkn => ?_
  rw [h.positions_eq hm, List.mem_range'_1] at hkm
  rw [h.positions_eq hn, List.mem_range'_1] at hkn
  have := hapart hslot
  omega

theorem pairwise_packCopies (h : p.IsLayout) (hnames : (p.members.map (·.name)).Nodup)
    (hslots : ∀ d ∈ p.direct, ∀ slot < p.widths.length, d.name ≠ slotName slot) :
    p.packCopies.Pairwise Copy.Apart := by
  rw [members, List.map_append] at hnames
  have hdirect : (p.direct.map FieldDescriptor.name).Nodup := (List.nodup_append.mp hnames).1
  refine List.pairwise_append.mpr ⟨List.pairwise_map.mpr ?_, List.pairwise_map.mpr ?_, ?_⟩
  · exact (List.pairwise_map.mp hdirect).imp Copy.apart_of_member
  · exact h.disjoint_positions.imp PackedMember.apart_packCopy
  · intro c hc e he
    obtain ⟨d, hd, rfl⟩ := List.mem_map.mp hc
    obtain ⟨m, hm, rfl⟩ := List.mem_map.mp he
    obtain ⟨w, hw, -⟩ := h.inside m hm
    exact Copy.apart_of_member (hslots d hd m.slot (List.getElem?_eq_some_iff.mp hw).1)

theorem pairwise_unpackCopies (hnames : (p.members.map (·.name)).Nodup) :
    p.unpackCopies.Pairwise Copy.Apart := by
  have htargets : p.unpackCopies.map (·.target.member) = p.members.map (·.name) := by
    rw [unpackCopies, members, List.map_append, List.map_append, List.map_map, List.map_map,
      List.map_map]
    rfl
  rw [← htargets] at hnames
  exact (List.pairwise_map.mp hnames).imp Copy.apart_of_member

/-- A member that is kept as it is is given back. -/
theorem unpack_direct (h : p.IsLayout) (hnames : (p.members.map (·.name)).Nodup)
    (hslots : ∀ d ∈ p.direct, ∀ slot < p.widths.length, d.name ≠ slotName slot)
    {d : FieldDescriptor} (hd : d ∈ p.direct) (start start' v : Contents α) (k : Nat) :
    p.unpackedContents start (p.packedContents start' v) d.name k = v d.name k := by
  have hcopy : d.copy ∈ p.direct.map FieldDescriptor.copy := List.mem_map_of_mem hd
  have hunpack := Copy.runAll_eq (p.packedContents start' v) start (pairwise_unpackCopies hnames)
    (List.mem_append_left _ hcopy) (origin?_copy d k)
  have hpack := Copy.runAll_eq v start' (h.pairwise_packCopies hnames hslots)
    (List.mem_append_left _ hcopy) (origin?_copy d k)
  exact hunpack.trans hpack

/-- A member of a slot is given back. -/
theorem unpack_packed (h : p.IsLayout) (hnames : (p.members.map (·.name)).Nodup)
    (hslots : ∀ d ∈ p.direct, ∀ slot < p.widths.length, d.name ≠ slotName slot)
    (hm : m ∈ p.packed) (start start' v : Contents α) {k : Nat} (hk : k < m.positions.length) :
    p.unpackedContents start (p.packedContents start' v) m.field.name k = v m.field.name k := by
  have hnodup : m.positions.Nodup := by
    rw [h.positions_eq hm]
    exact List.nodup_range'
  have hunpack := Copy.runAll_eq (p.packedContents start' v) start (pairwise_unpackCopies hnames)
    (List.mem_append_right _ (List.mem_map_of_mem hm))
    ((origin?_unpackCopy m k).trans (List.getElem?_eq_getElem hk))
  have hpack := Copy.runAll_eq v start' (h.pairwise_packCopies hnames hslots)
    (List.mem_append_right _ (List.mem_map_of_mem hm)) (origin?_packCopy hk hnodup)
  exact hunpack.trans hpack

end IsLayout
end Packing

/-! ### The functions of a struct -/

namespace StructDescriptor

/-- The packed struct itself. -/
def packedStruct (s : StructDescriptor) (active : List Field) : List Code :=
  [.line ("struct " ++ ("Packed" ++ s.name)),
    .nested .declaration (s.packing active).memberCode, .newline]

/-- The two functions, from the copies that each of them makes. -/
def copyFunctions (s : StructDescriptor) (pack unpack : List Copy) : List Code :=
  let packedName := "Packed" ++ s.name
  [.line (packedName ++ " Pack" ++ s.name ++ " (" ++ s.name ++ " input)"),
    .nested .block
      (.line (packedName ++ " output;") :: .line ("ZERO_INITIALIZE(" ++ packedName ++ ", output);") ::
        pack.flatMap Copy.code ++ [.line "return output;"]),
    .newline,
    .line (s.name ++ " Unpack" ++ s.name ++ " (" ++ packedName ++ " input)"),
    .nested .block
      (.line (s.name ++ " output;") :: unpack.flatMap Copy.code ++ [.line "return output;"])]

theorem packedCode_eq (s : StructDescriptor) (active : List Field) :
    s.packedCode active = s.packedStruct active ++
      s.copyFunctions (s.packing active).packCopies (s.packing active).unpackCopies := by
  rw [packedCode, copyFunctions, ← Packing.pack_eq_code, ← Packing.unpack_eq_code]
  simp only [List.cons_append, List.append_assoc]
  rfl

variable {s : StructDescriptor} {active : List Field}

theorem nodup_activeMembers (h : (s.fields.map (·.name)).Nodup) :
    ((s.activeMembers active).map (·.name)).Nodup :=
  h.sublist (List.filter_sublist.map _)

/-- **Unpacking undoes packing.**  Of a struct whose members have different names, each active
member is kept as it is or packed.  A packed member has as many components of its slot as its
type, all of them inside the slot, and shares none.  The generated functions are copies, and
unpacking what was packed gives every active member back, as long as none that is kept as it
is has the name of a slot. -/
theorem packing_restores (hnames : (s.fields.map (·.name)).Nodup) (active : List Field) :
    let p := s.packing active
    (p.members.Perm (s.activeMembers active) ∧
        p.direct.Disjoint (p.packed.map PackedMember.field)) ∧
      (∀ w ∈ p.widths, 1 ≤ w ∧ w ≤ 4) ∧
      (∀ m ∈ p.packed, m.field.type.bind floatComponents? = some m.lanes.length ∧
        ∃ w, p.widths[m.slot]? = some w ∧ ∀ k ∈ m.positions, k < w) ∧
      (p.packed.Pairwise fun m n => m.slot = n.slot → m.positions.Disjoint n.positions) ∧
      s.packedCode active = s.packedStruct active ++ s.copyFunctions p.packCopies p.unpackCopies ∧
      ((∀ d ∈ p.direct, ∀ slot < p.widths.length, d.name ≠ slotName slot) →
        ∀ (α : Type) (start start' v : Contents α),
          (∀ d ∈ p.direct, ∀ k,
            p.unpackedContents start (p.packedContents start' v) d.name k = v d.name k) ∧
          ∀ m ∈ p.packed, ∀ k < m.lanes.length,
            p.unpackedContents start (p.packedContents start' v) m.field.name k =
              v m.field.name k) := by
  intro p
  have hlayout : p.IsLayout := s.isLayout_packing active
  have hperm : p.members.Perm (s.activeMembers active) := s.perm_packing active
  have hmembers : (p.members.map (·.name)).Nodup :=
    (hperm.map _).nodup_iff.mpr (nodup_activeMembers hnames)
  refine ⟨⟨hperm, ?_⟩, hlayout.widths, fun m hm => ⟨?_, ?_⟩, hlayout.disjoint_positions,
    s.packedCode_eq active, fun hslots α start start' v => ⟨fun d hd k => ?_, fun m hm k hk => ?_⟩⟩
  · exact List.disjoint_of_nodup_append (List.Nodup.of_map _ hmembers)
  · rw [hlayout.length_lanes hm]
    exact Packing.type_of_packedWidth? (hlayout.packed m hm)
  · obtain ⟨w, hw, hend⟩ := hlayout.inside m hm
    refine ⟨w, hw, fun k hk => ?_⟩
    rw [hlayout.positions_eq hm, List.mem_range'_1] at hk
    exact hk.2.trans_le hend
  · exact hlayout.unpack_direct hmembers hslots hd start start' v k
  · refine hlayout.unpack_packed hmembers hslots hm start start' v ?_
    rwa [PackedMember.positions, List.length_map]

end StructDescriptor

/-! ### A member named like a slot -/

/-- A member that is kept as it is. -/
def slotMember (name : String) : FieldDescriptor :=
  { tag := "Varyings", name := name, type := some "float4", semantic := some "TEXCOORD0" }

/-- A member that goes into the first slot. -/
def fogMember : FieldDescriptor := { tag := "Varyings", name := "fogFactor", type := some "float" }

/-- A struct with both members. -/
def slotStruct (name : String) : StructDescriptor where
  name := "Varyings"
  packFields := true
  fields := [slotMember name, fogMember]

/-- Both members are active. -/
def slotFields (name : String) : List Field :=
  [.ofTag "Varyings" name, .ofTag "Varyings" "fogFactor"]

/-- A member that is named like a slot is overwritten by what is packed into the slot. -/
theorem exists_struct_not_restored :
    ∃ (s : StructDescriptor) (active : List Field), (s.fields.map (·.name)).Nodup ∧
      ∃ start start' v : Contents Nat, ∃ d ∈ s.activeMembers active, ∃ k < 4,
        d.type.bind floatComponents? = some 4 ∧
          (s.packing active).unpackedContents start
            ((s.packing active).packedContents start' v) d.name k ≠ v d.name k := by
  refine ⟨slotStruct "interp0", slotFields "interp0", by decide, fun _ _ => 0, fun _ _ => 0,
    fun member _ => if member = "fogFactor" then 1 else 0, slotMember "interp0", by decide, 0,
    by decide, by decide, ?_⟩
  decide

/-- The layout where the member has another name. -/
def slotPacking : Packing := (slotStruct "texCoord0").packing (slotFields "texCoord0")

/-- A number for the fog, and for every other component its position. -/
def slotContents : Contents Nat := fun member k => if member = "fogFactor" then 7 else k

/-- With another name it is given back, and so is what is packed into the slot. -/
theorem packing_restores_slotStruct :
    ((slotStruct "texCoord0").fields.map (·.name)).Nodup ∧
      (∀ d ∈ slotPacking.direct, ∀ slot < slotPacking.widths.length, d.name ≠ slotName slot) ∧
      slotPacking.unpackedContents (fun _ _ => 0)
        (slotPacking.packedContents (fun _ _ => 0) slotContents) "texCoord0" 2 = 2 ∧
      slotPacking.unpackedContents (fun _ _ => 0)
        (slotPacking.packedContents (fun _ _ => 0) slotContents) "fogFactor" 0 = 7 := by
  have hnames : ((slotStruct "texCoord0").fields.map (·.name)).Nodup := by decide
  have hslots : ∀ d ∈ slotPacking.direct, ∀ slot < slotPacking.widths.length,
      d.name ≠ slotName slot := by decide
  have hfog : ⟨fogMember, 0, 0, 1⟩ ∈ slotPacking.packed := by decide
  obtain ⟨-, -, -, -, -, hrestores⟩ :=
    (slotStruct "texCoord0").packing_restores hnames (slotFields "texCoord0")
  obtain ⟨hdirect, hpacked⟩ := hrestores hslots Nat (fun _ _ => 0) (fun _ _ => 0) slotContents
  exact ⟨hnames, hslots, hdirect (slotMember "texCoord0") (by decide) 2,
    hpacked _ hfog 0 (by decide)⟩

end MaterialShader
