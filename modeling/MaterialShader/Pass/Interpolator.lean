import MaterialShader.Pass.Struct
import MaterialShader.Shading.Expr

/-!
# Packed structs

Between stages a struct can be passed in a packed form.  Members with a semantic or
a preprocessor condition, and members that are no floats, are kept as they are; the
other ones share slots of up to four components, each going into the first slot that
has room.  Permutations whose packed forms agree share one text.

## Main definitions

* `Packing`, `Packing.place` — the slots, and the member that goes in next.
* `StructDescriptor.packing` — the packing for a set of active fields.
* `StructDescriptor.packedCode` — the packed struct and the functions to and from it.
* `Variant`, `StructDescriptor.packedText` — the texts of all permutations.
* `packingText` — the section.
-/

namespace MaterialShader

open Shading (Lane ValueType Directive)

/-! ### Slots -/

/-- The components of a type of floats. -/
def floatComponents? (type : String) : Option Nat :=
  [("float", 1), ("float2", 2), ("float3", 3), ("float4", 4)].lookup (resolvePrecision type)

/-- A member with its place in a slot. -/
structure PackedMember where
  /-- The member. -/
  field : FieldDescriptor
  slot : Nat
  /-- The first component. -/
  start : Nat
  /-- How many components it has. -/
  width : Nat
  deriving DecidableEq, Repr, Inhabited

/-- The components of its slot that a member has. -/
def PackedMember.lanes (m : PackedMember) : List Lane := (Lane.all.drop m.start).take m.width

/-- The members of a packed struct. -/
structure Packing where
  /-- The members kept as they are. -/
  direct : List FieldDescriptor
  /-- The members in slots. -/
  packed : List PackedMember
  /-- How many components of each slot are taken. -/
  widths : List Nat
  deriving DecidableEq, Repr, Inhabited

namespace Packing

/-- Nothing packed. -/
def empty : Packing := ⟨[], [], []⟩

/-- The components of a member that goes into a slot; other members have none. -/
def packedWidth? (d : FieldDescriptor) : Option Nat :=
  if d.semantic.isSome || d.preprocessor.isSome then none else d.type.bind floatComponents?

/-- How many components a slot has. -/
def slotSize : Nat := 4

/-- A member of `width` components in a slot. -/
def pack (p : Packing) (d : FieldDescriptor) (width : Nat) : Packing :=
  -- the first slot with room for the member, or a new one
  match p.widths.findIdx? fun w => w + width ≤ slotSize with
  | some slot =>
      { p with
        packed := p.packed ++ [⟨d, slot, p.widths.getD slot 0, width⟩]
        widths := p.widths.modify slot (· + width) }
  | none =>
      { p with
        packed := p.packed ++ [⟨d, p.widths.length, 0, width⟩]
        widths := p.widths ++ [width] }

/-- One more member. -/
def place (p : Packing) (d : FieldDescriptor) : Packing :=
  match packedWidth? d with
  | some width => p.pack d width
  | none => { p with direct := p.direct ++ [d] }

end Packing

/-- The packing of the members whose fields are active. -/
def StructDescriptor.packing (s : StructDescriptor) (active : List Field) : Packing :=
  (s.fields.filter fun d => decide (d.field ∈ active)).foldl Packing.place .empty

/-! ### Code -/

/-- The member that holds a slot. -/
def slotName (slot : Nat) : String := "interp" ++ toString slot

/-- The line of a slot. -/
def slotLine (slot width : Nat) : String :=
  (if width = 1 then "float" else "float" ++ toString width) ++ " " ++ slotName slot ++
    " : INTERP" ++ toString slot ++ ";"

/-- The lines of the members of a packed struct: those with a semantic, the slots,
and the other ones. -/
def Packing.memberCode (p : Packing) : List Code :=
  let declare (d : FieldDescriptor) := Code.guardedBy d.preprocessor d.declaration
  (p.direct.filter fun d => d.semantic.isSome).flatMap declare ++
    (p.widths.mapIdx fun slot width => Code.line (slotLine slot width)) ++
    (p.direct.filter fun d => d.semantic.isNone).flatMap declare

/-- The lines that copy the members kept as they are. -/
def Packing.copyCode (p : Packing) : List Code :=
  p.direct.flatMap fun d =>
    Code.guardedBy d.preprocessor ("output." ++ d.name ++ " = input." ++ d.name ++ ";")

/-- The components of a slot that a member has, as code. -/
def PackedMember.place (m : PackedMember) : String :=
  slotName m.slot ++ "." ++ Lane.selection m.lanes

/-- The line that packs a member. -/
def PackedMember.packLine (m : PackedMember) : String :=
  "output." ++ m.place ++ " = input." ++ m.field.name ++ ";"

/-- The line that unpacks a member. -/
def PackedMember.unpackLine (m : PackedMember) : String :=
  "output." ++ m.field.name ++ " = input." ++ m.place ++ ";"

/-- The packed struct, the function that packs and the function that unpacks. -/
def StructDescriptor.packedCode (s : StructDescriptor) (active : List Field) : List Code :=
  let packing := s.packing active
  let packedName := "Packed" ++ s.name
  [.line ("struct " ++ packedName), .nested .declaration packing.memberCode, .newline,
    .line (packedName ++ " Pack" ++ s.name ++ " (" ++ s.name ++ " input)"),
    .nested .block
      (.line (packedName ++ " output;") ::
        .line ("ZERO_INITIALIZE(" ++ packedName ++ ", output);") ::
        packing.copyCode ++ packing.packed.map (fun m => .line m.packLine) ++
        [.line "return output;"]),
    .newline,
    .line (s.name ++ " Unpack" ++ s.name ++ " (" ++ packedName ++ " input)"),
    .nested .block
      (.line (s.name ++ " output;") ::
        packing.copyCode ++ packing.packed.map (fun m => .line m.unpackLine) ++
        [.line "return output;"])]

/-! ### Permutations -/

/-- A text with the permutations it is for. -/
structure Variant where
  /-- The text. -/
  body : String
  /-- The permutations. -/
  indices : List Nat
  deriving DecidableEq, Repr, Inhabited

/-- Variants with the text of one more permutation. -/
def addVariant : List Variant → String → Nat → List Variant
  | [], body, index => [⟨body, [index]⟩]
  | v :: rest, body, index =>
      if v.body = body then { v with indices := v.indices ++ [index] } :: rest
      else v :: addVariant rest body index

/-- The packed texts of all permutations. -/
def StructDescriptor.variants (s : StructDescriptor) (a : ActiveFields) : List Variant :=
  a.permutationInstances.foldl
    (fun vs i => addVariant vs (Code.text (s.packedCode i.fields)) (i.permutation.getD 0)) []

/-- Variants in branches, each in the permutations it is for. -/
def variantCode (variants : List Variant) : List Code :=
  (variants.mapIdx fun position v =>
    [Code.directive (.branch position (permutationsCondition v.indices)),
      Code.lines v.body]).flatten ++ [.directive .endIf]

/-- The packed form of a struct; branches are needed only if permutations differ. -/
def StructDescriptor.packedText (s : StructDescriptor) (a : ActiveFields) : String :=
  match s.variants a with
  | [v] => v.body
  | variants => Code.text (variantCode variants)

/-- The section of packed structs. -/
def packingText (structs : List StructDescriptor) (a : ActiveFields) : String :=
  orNone (paragraphs ((structs.filter (·.packFields)).map fun s => s.packedText a))

end MaterialShader
