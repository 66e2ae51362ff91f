import MaterialShader.Proofs.PackingLayout
import MaterialShader.Proofs.PermutationBranch
import MaterialShader.Proofs.SectionPermutation

/-!
# Variants of packed structs

Permutations that pack a struct alike share one text.  The texts are collected one permutation
after the other, so at every moment the permutations seen so far are shared out among different
texts.  In the end each permutation has exactly one, and the preprocessor chooses it by the
symbol of the permutation.

A struct that all permutations pack alike needs no branches.  Otherwise each text is a branch of
one group, and since the guards of members ask for no permutation, nothing else is resolved.

## Main definitions

* `AreVariants` — permutations are shared out among different texts.
* `StructDescriptor.bodyIn` — the packed form of a struct in a permutation.
* `branchSets` — the permutations that the branches of a text ask for.

## Main results

* `areVariants_variants` — the variants of a struct share out all permutations.
* `StructDescriptor.packedText_branches` — the branches of a packed struct, and what is left of
  them in a permutation.
-/

namespace MaterialShader

open Shading (Directive Condition)
open Preprocessor
open Writer (lineBody)

/-! ### Collecting variants -/

/-- The permutations in `done` are shared out among variants with different texts, each having
at least one. -/
structure AreVariants (body : Nat → String) (done : List Nat) (vs : List Variant) : Prop where
  nodup : (vs.map Variant.body).Nodup
  perm : (vs.flatMap Variant.indices).Perm done
  body_eq : ∀ v ∈ vs, ∀ i ∈ v.indices, body i = v.body
  ne_nil : ∀ v ∈ vs, v.indices ≠ []

section Collect

variable {body : Nat → String} {done : List Nat} {vs : List Variant}

theorem map_body_addVariant (vs : List Variant) (text : String) (index : Nat) :
    (addVariant vs text index).map Variant.body =
      if text ∈ vs.map Variant.body then vs.map Variant.body else vs.map Variant.body ++ [text] := by
  induction vs with
  | nil => rfl
  | cons v rest ih =>
    rw [addVariant]
    by_cases hv : v.body = text
    · rw [if_pos hv, if_pos (by simp [hv])]
      rfl
    · rw [if_neg hv, List.map_cons, ih, List.map_cons]
      by_cases hrest : text ∈ rest.map Variant.body
      · rw [if_pos hrest, if_pos (List.mem_cons_of_mem _ hrest)]
      · rw [if_neg hrest, if_neg (by simpa [Ne.symm hv] using hrest), List.cons_append]

theorem perm_addVariant (vs : List Variant) (text : String) (index : Nat) :
    ((addVariant vs text index).flatMap Variant.indices).Perm
      (vs.flatMap Variant.indices ++ [index]) := by
  induction vs with
  | nil => exact List.Perm.refl _
  | cons v rest ih =>
    rw [addVariant]
    by_cases hv : v.body = text
    · rw [if_pos hv, List.flatMap_cons, List.flatMap_cons, List.append_assoc, List.append_assoc]
      exact List.perm_append_comm.append_left v.indices
    · rw [if_neg hv, List.flatMap_cons, List.flatMap_cons, List.append_assoc]
      exact ih.append_left v.indices

/-- A variant was there before, or it is that of the text, with one more permutation. -/
theorem mem_addVariant {text : String} {index : Nat} {w : Variant}
    (h : w ∈ addVariant vs text index) :
    w ∈ vs ∨ w.body = text ∧ ∃ before, w.indices = before ++ [index] ∧
      (before = [] ∨ ∃ v ∈ vs, v.body = text ∧ v.indices = before) := by
  induction vs with
  | nil =>
    obtain rfl := List.mem_singleton.mp h
    exact Or.inr ⟨rfl, [], rfl, Or.inl rfl⟩
  | cons v rest ih =>
    rw [addVariant] at h
    by_cases hv : v.body = text
    · rw [if_pos hv] at h
      rcases List.mem_cons.mp h with rfl | h
      · exact Or.inr ⟨hv, v.indices, rfl, Or.inr ⟨v, List.mem_cons_self, hv, rfl⟩⟩
      · exact Or.inl (List.mem_cons_of_mem v h)
    · rw [if_neg hv] at h
      rcases List.mem_cons.mp h with rfl | h
      · exact Or.inl List.mem_cons_self
      · rcases ih h with hw | ⟨hbody, before, hindices, hbefore⟩
        · exact Or.inl (List.mem_cons_of_mem v hw)
        · refine Or.inr ⟨hbody, before, hindices, hbefore.imp_right ?_⟩
          rintro ⟨u, hu, hubody, huindices⟩
          exact ⟨u, List.mem_cons_of_mem v hu, hubody, huindices⟩

/-- One more permutation is shared out. -/
theorem AreVariants.addVariant {index : Nat} (h : AreVariants body done vs) :
    AreVariants body (done ++ [index]) (addVariant vs (body index) index) where
  nodup := by
    rw [map_body_addVariant]
    split
    · exact h.nodup
    · next hnew => exact List.nodup_append.mpr ⟨h.nodup, by simp, by simpa using hnew⟩
  perm := (perm_addVariant vs _ _).trans (h.perm.append_right [index])
  body_eq v hv i hi := by
    rcases mem_addVariant hv with hv | ⟨hbody, before, hindices, hbefore⟩
    · exact h.body_eq v hv i hi
    · rw [hindices, List.mem_append, List.mem_singleton] at hi
      rcases hi with hi | rfl
      · rcases hbefore with rfl | ⟨u, hu, hubody, rfl⟩
        · exact absurd hi List.not_mem_nil
        · rw [h.body_eq u hu i hi, hubody, hbody]
      · exact hbody.symm
  ne_nil v hv := by
    rcases mem_addVariant hv with hv | ⟨-, before, hindices, -⟩
    · exact h.ne_nil v hv
    · rw [hindices]
      exact List.append_ne_nil_of_right_ne_nil _ (List.cons_ne_nil _ _)

/-- All permutations of a list are shared out. -/
theorem areVariants_foldl (indices : List Nat) (h : AreVariants body done vs) :
    AreVariants body (done ++ indices)
      (indices.foldl (fun vs i => MaterialShader.addVariant vs (body i) i) vs) := by
  induction indices generalizing done vs with
  | nil => simpa using h
  | cons i indices ih =>
    have hnext : AreVariants body (done ++ [i]) _ := h.addVariant
    have hall := ih hnext
    rwa [List.append_assoc] at hall

namespace AreVariants

variable {count : Nat} {v : Variant}

theorem mem_indices_lt (h : AreVariants body (List.range count) vs) (hv : v ∈ vs) :
    ∀ i ∈ v.indices, i < count := fun _ hi =>
  List.mem_range.mp (h.perm.mem_iff.mp (List.mem_flatMap.mpr ⟨v, hv, hi⟩))

theorem exists_mem (h : AreVariants body (List.range count) vs) {i : Nat} (hi : i < count) :
    ∃ v ∈ vs, i ∈ v.indices :=
  List.mem_flatMap.mp (h.perm.mem_iff.mpr (List.mem_range.mpr hi))

/-- The text of a variant is that of one of its permutations. -/
theorem exists_body (h : AreVariants body (List.range count) vs) (hv : v ∈ vs) :
    ∃ i < count, v.body = body i := by
  obtain ⟨i, hi⟩ := List.exists_mem_of_ne_nil _ (h.ne_nil v hv)
  exact ⟨i, h.mem_indices_lt hv i hi, (h.body_eq v hv i hi).symm⟩

/-- There is a single variant exactly if all permutations have the same text. -/
theorem eq_singleton_iff (h : AreVariants body (List.range count) vs) (hcount : 0 < count) :
    (∃ v, vs = [v]) ↔ ∀ i < count, ∀ j < count, body i = body j := by
  constructor
  · rintro ⟨v, rfl⟩ i hi j hj
    obtain ⟨w, hw, hiw⟩ := h.exists_mem hi
    obtain ⟨u, hu, hju⟩ := h.exists_mem hj
    obtain rfl := List.mem_singleton.mp hw
    obtain rfl := List.mem_singleton.mp hu
    rw [h.body_eq _ hw i hiw, h.body_eq _ hw j hju]
  · intro hsame
    obtain ⟨v, hv, -⟩ := h.exists_mem hcount
    match vs, h, hv with
    | [w], _, _ => exact ⟨w, rfl⟩
    | u :: w :: rest, h, _ =>
      -- two variants have different texts, and a permutation each
      have hu : u ∈ u :: w :: rest := List.mem_cons_self
      have hw : w ∈ u :: w :: rest := List.mem_cons_of_mem u List.mem_cons_self
      obtain ⟨i, hi⟩ := List.exists_mem_of_ne_nil _ (h.ne_nil u hu)
      obtain ⟨j, hj⟩ := List.exists_mem_of_ne_nil _ (h.ne_nil w hw)
      have hbody : u.body = w.body := by
        rw [← h.body_eq u hu i hi, ← h.body_eq w hw j hj]
        exact hsame i (h.mem_indices_lt hu i hi) j (h.mem_indices_lt hw j hj)
      have hnodup := h.nodup
      rw [List.map_cons, List.map_cons, hbody] at hnodup
      exact absurd List.mem_cons_self (List.nodup_cons.mp hnodup).1

end AreVariants
end Collect

/-! ### Packed structs -/

namespace StructDescriptor

variable {s : StructDescriptor} {a b : ActiveFields} {fields more : List Field}
  {count index : Nat}

/-- The packed form of a struct in a permutation. -/
def bodyIn (s : StructDescriptor) (a : ActiveFields) (index : Nat) : String :=
  Code.text (s.packedCode (a.fieldsIn index))

/-- The variants of a struct share out all permutations. -/
theorem areVariants_variants (s : StructDescriptor) (h : 0 < a.permutationCount) :
    AreVariants (s.bodyIn a) (List.range a.permutationCount) (s.variants a) := by
  have hne : a.permutations.isEmpty = false := by
    rw [List.isEmpty_eq_false_iff, ← List.length_pos_iff]
    exact h
  have hstart : AreVariants (s.bodyIn a) [] [] :=
    ⟨List.nodup_nil, List.Perm.refl _, List.forall_mem_nil _, List.forall_mem_nil _⟩
  have hall := areVariants_foldl (List.range a.permutationCount) hstart
  rw [List.nil_append] at hall
  rw [variants, ActiveFields.permutationInstances, hne, if_neg Bool.false_ne_true,
    ActiveFields.layered_eq, List.foldl_map]
  exact hall

theorem packedCode_congr (h : ∀ f, f ∈ fields ↔ f ∈ more) :
    s.packedCode fields = s.packedCode more := by
  have hpacking : s.packing fields = s.packing more := by
    rw [packing, packing]
    simp only [h]
  rw [packedCode, packedCode, hpacking]

/-- A permutation by itself has its packed form without branches. -/
theorem packedText_of_isolates (hb : a.Isolates index b) : s.packedText b = s.bodyIn a index := by
  have hinstances : b.permutationInstances = [b.baseInstance] := by
    rw [ActiveFields.permutationInstances, hb.permutations]
    rfl
  have hvariants : s.variants b = [⟨Code.text (s.packedCode b.base), [0]⟩] := by
    rw [variants, hinstances, List.foldl_cons, List.foldl_nil, addVariant]
    rfl
  rw [packedText, hvariants, bodyIn, packedCode_congr hb.mem_base_iff]

/-- No guard of a member mentions the symbol of one of the permutations. -/
def HidesPermutations (s : StructDescriptor) (count : Nat) : Prop :=
  ∀ d ∈ s.fields, ∀ guard ∈ d.preprocessor, ∀ i < count,
    ¬Text.Mentions guard (permutationSymbol i)

instance (s : StructDescriptor) (count : Nat) : Decidable (s.HidesPermutations count) :=
  inferInstanceAs (Decidable (∀ d ∈ s.fields, ∀ guard ∈ d.preprocessor, ∀ i < count,
    ¬Text.Mentions guard (permutationSymbol i)))

/-! ### Lines of a packed struct -/

theorem isOneLine_toString (n : Nat) : Text.IsOneLine (toString n) :=
  (Text.isOneLine_append.mp (Text.isOneLine_of_isIdentifier (isIdentifier_permutationSymbol n))).2

theorem isPlain_slotLine (slot width : Nat) : IsPlain (slotLine slot width) := by
  have htype : Text.IsOneLine (if width = 1 then "float" else "float" ++ toString width) := by
    split
    · decide
    · exact Text.isOneLine_append.mpr ⟨by decide, isOneLine_toString width⟩
  have hslot := isOneLine_toString slot
  have honeLine : Text.IsOneLine (slotLine slot width) := by
    simp only [slotLine, slotName, Text.isOneLine_append]
    exact ⟨⟨⟨⟨⟨htype, by decide⟩, ⟨by decide, hslot⟩⟩, by decide⟩, hslot⟩, by decide⟩
  have hhead : (slotLine slot width).toList.head? = some 'f' := by
    unfold slotLine
    split <;> simp
  exact isPlain_of_head honeLine hhead (by decide) (by decide)

theorem isOneLine_place (m : PackedMember) : Text.IsOneLine m.place := by
  simp only [PackedMember.place, slotName, Text.isOneLine_append]
  exact ⟨⟨⟨by decide, isOneLine_toString m.slot⟩, by decide⟩, Shading.isOneLine_selection m.lanes⟩

/-- A line that writes to the output is plain. -/
theorem isPlain_copyLine {target source : String} (htarget : Text.IsOneLine target)
    (hsource : Text.IsOneLine source) :
    IsPlain ("output." ++ target ++ " = input." ++ source ++ ";") := by
  have honeLine : Text.IsOneLine ("output." ++ target ++ " = input." ++ source ++ ";") := by
    simp only [Text.isOneLine_append]
    exact ⟨⟨⟨⟨by decide, htarget⟩, by decide⟩, hsource⟩, by decide⟩
  exact isPlain_of_head honeLine (by simp) (by decide : 'o' ≠ ' ') (by decide)

/-- A line under the guard of a member asks for no permutation. -/
theorem isBranchFree_guarded {d : FieldDescriptor} {line : String} (hs : s.HasPlainStrings)
    (hhides : s.HidesPermutations count) (hd : d ∈ s.fields) (hline : IsPlain line) :
    Code.IsBranchFree count (Code.guardedBy d.preprocessor line) :=
  .guardedBy (hs.fields d hd).preprocessor (hhides d hd) hline

theorem isBranchFree_memberCode {p : Packing} (hs : s.HasPlainStrings)
    (hhides : s.HidesPermutations count) (hdirect : ∀ d ∈ p.direct, d ∈ s.fields) :
    Code.IsBranchFree count p.memberCode := by
  have hdeclare : ∀ d ∈ p.direct,
      Code.IsBranchFree count (Code.guardedBy d.preprocessor d.declaration) := fun d hd =>
    isBranchFree_guarded hs hhides (hdirect d hd)
      (FieldDescriptor.isPlain_declaration (hs.fields d (hdirect d hd)))
  refine .append (.append (.flatMap fun d hd => ?_) (.of_lines fun c hc => ?_))
    (.flatMap fun d hd => ?_)
  · exact hdeclare d (List.mem_filter.mp hd).1
  · obtain ⟨slot, hslot, rfl⟩ := List.mem_mapIdx.mp hc
    exact ⟨_, rfl, isPlain_slotLine slot _⟩
  · exact hdeclare d (List.mem_filter.mp hd).1

theorem isBranchFree_copyCode {p : Packing} (hs : s.HasPlainStrings)
    (hhides : s.HidesPermutations count) (hdirect : ∀ d ∈ p.direct, d ∈ s.fields) :
    Code.IsBranchFree count p.copyCode := by
  refine .flatMap fun d hd => isBranchFree_guarded hs hhides (hdirect d hd) ?_
  have hname := (hs.fields d (hdirect d hd)).name.1
  exact isPlain_copyLine hname hname

/-- A function that makes an output, fills it and returns it. -/
def functionCode (signature : String) (fill : List Code) : List Code :=
  [.line signature, .nested .block (fill ++ [.line "return output;"])]

theorem isBranchFree_functionCode {signature : String} {fill : List Code}
    (hsignature : IsPlain signature) (hfill : Code.IsBranchFree count fill) :
    Code.IsBranchFree count (functionCode signature fill) :=
  (Code.IsBranchFree.line hsignature).append ((hfill.append (.line (by decide))).nested .block)

/-- The function that packs. -/
def packFunction (s : StructDescriptor) (p : Packing) : List Code :=
  functionCode ("Packed" ++ s.name ++ " Pack" ++ s.name ++ " (" ++ s.name ++ " input)")
    (.line ("Packed" ++ s.name ++ " output;") ::
      .line ("ZERO_INITIALIZE(" ++ ("Packed" ++ s.name) ++ ", output);") ::
      p.copyCode ++ p.packed.map fun m => .line m.packLine)

/-- The function that unpacks. -/
def unpackFunction (s : StructDescriptor) (p : Packing) : List Code :=
  functionCode (s.name ++ " Unpack" ++ s.name ++ " (" ++ ("Packed" ++ s.name) ++ " input)")
    (.line (s.name ++ " output;") :: p.copyCode ++ p.packed.map fun m => .line m.unpackLine)

theorem packedCode_eq_functions (s : StructDescriptor) (fields : List Field) :
    s.packedCode fields =
      [.line ("struct " ++ ("Packed" ++ s.name)),
        .nested .declaration (s.packing fields).memberCode, .newline] ++
        s.packFunction (s.packing fields) ++ [.newline] ++ s.unpackFunction (s.packing fields) := by
  simp only [packedCode, packFunction, unpackFunction, functionCode, List.cons_append,
    List.append_assoc, List.nil_append]

theorem isBranchFree_packFunction {p : Packing} (hs : s.HasPlainStrings)
    (hhides : s.HidesPermutations count) (hdirect : ∀ d ∈ p.direct, d ∈ s.fields)
    (hpacked : ∀ m ∈ p.packed, Text.IsOneLine m.field.name) :
    Code.IsBranchFree count (s.packFunction p) := by
  have hname := hs.name.1
  have hsignature : IsPlain
      ("Packed" ++ s.name ++ " Pack" ++ s.name ++ " (" ++ s.name ++ " input)") := by
    refine isPlain_of_head ?_ (by simp) (by decide : 'P' ≠ ' ') (by decide)
    simp only [Text.isOneLine_append]
    exact ⟨⟨⟨⟨⟨⟨by decide, hname⟩, by decide⟩, hname⟩, by decide⟩, hname⟩, by decide⟩
  have houtput : IsPlain ("Packed" ++ s.name ++ " output;") := by
    refine isPlain_of_head ?_ (by simp) (by decide : 'P' ≠ ' ') (by decide)
    simp only [Text.isOneLine_append]
    exact ⟨⟨by decide, hname⟩, by decide⟩
  have hzero : IsPlain ("ZERO_INITIALIZE(" ++ ("Packed" ++ s.name) ++ ", output);") := by
    refine isPlain_of_head ?_ (by simp) (by decide : 'Z' ≠ ' ') (by decide)
    simp only [Text.isOneLine_append]
    exact ⟨⟨by decide, ⟨by decide, hname⟩⟩, by decide⟩
  have hlines : Code.IsBranchFree count (p.packed.map fun m => .line m.packLine) :=
    .of_lines (List.forall_mem_map.mpr fun m hm =>
      ⟨_, rfl, isPlain_copyLine (isOneLine_place m) (hpacked m hm)⟩)
  exact isBranchFree_functionCode hsignature ((Code.IsBranchFree.line houtput).append
    ((Code.IsBranchFree.line hzero).append
      ((isBranchFree_copyCode hs hhides hdirect).append hlines)))

theorem isBranchFree_unpackFunction {p : Packing} (hs : s.HasPlainStrings)
    (hhides : s.HidesPermutations count) (hdirect : ∀ d ∈ p.direct, d ∈ s.fields)
    (hpacked : ∀ m ∈ p.packed, Text.IsOneLine m.field.name) :
    Code.IsBranchFree count (s.unpackFunction p) := by
  have hname := hs.name.1
  -- both lines begin with the name, whatever it is
  have hrest : IsPlain ("Unpack" ++ s.name ++ " (" ++ ("Packed" ++ s.name) ++ " input)") := by
    refine isPlain_of_head ?_ (by simp) (by decide : 'U' ≠ ' ') (by decide)
    simp only [Text.isOneLine_append]
    exact ⟨⟨⟨⟨by decide, hname⟩, by decide⟩, ⟨by decide, hname⟩⟩, by decide⟩
  have hsignature : IsPlain
      (s.name ++ " Unpack" ++ s.name ++ " (" ++ ("Packed" ++ s.name) ++ " input)") := by
    refine ⟨?_, lineRole_append_blank (by simp) hs.name.2 hrest.2⟩
    simp only [Text.isOneLine_append]
    exact ⟨⟨⟨⟨⟨hname, by decide⟩, hname⟩, by decide⟩, ⟨by decide, hname⟩⟩, by decide⟩
  have houtput : IsPlain (s.name ++ " output;") :=
    ⟨Text.isOneLine_append.mpr ⟨hname, by decide⟩, lineRole_append_blank (by simp) hs.name.2
      (by decide : lineRole "output;" = .text)⟩
  have hlines : Code.IsBranchFree count (p.packed.map fun m => .line m.unpackLine) :=
    .of_lines (List.forall_mem_map.mpr fun m hm =>
      ⟨_, rfl, isPlain_copyLine (hpacked m hm) (isOneLine_place m)⟩)
  exact isBranchFree_functionCode hsignature ((Code.IsBranchFree.line houtput).append
    ((isBranchFree_copyCode hs hhides hdirect).append hlines))

/-- The packed form of a struct asks for no permutation. -/
theorem isBranchFree_packedCode (hs : s.HasPlainStrings) (hhides : s.HidesPermutations count) :
    Code.IsBranchFree count (s.packedCode fields) := by
  have hmem : ∀ d ∈ (s.packing fields).members, d ∈ s.fields := fun d hd =>
    (mem_activeMembers.mp ((s.perm_packing fields).mem_iff.mp hd)).1
  have hdirect : ∀ d ∈ (s.packing fields).direct, d ∈ s.fields := fun d hd =>
    hmem d (List.mem_append_left _ hd)
  have hpacked : ∀ m ∈ (s.packing fields).packed, Text.IsOneLine m.field.name := fun m hm =>
    (hs.fields _ (hmem _ (List.mem_append_right _ (List.mem_map_of_mem hm)))).name.1
  have hname : Text.IsOneLine ("Packed" ++ s.name) :=
    Text.isOneLine_append.mpr ⟨by decide, hs.name.1⟩
  have hstruct := (Code.IsBranchFree.line (isPlain_struct hname)).append
    (((isBranchFree_memberCode hs hhides hdirect).nested .declaration).append .newline)
  rw [packedCode_eq_functions]
  exact ((hstruct.append (isBranchFree_packFunction hs hhides hdirect hpacked)).append .newline).append
    (isBranchFree_unpackFunction hs hhides hdirect hpacked)

theorem getLast?_packedCode (s : StructDescriptor) (fields : List Field) :
    (Code.writtenLines 0 (s.packedCode fields)).getLast? = some "\x7d" := by
  rw [packedCode_eq_functions, unpackFunction, functionCode,
    Code.writtenLines_append, List.getLast?_append, Code.writtenLines, Code.writtenLines, Code.writtenLines,
    List.append_nil, Code.writtenLine, Code.writtenLine, List.getLast?_append, List.getLast?_append]
  simp [Scope.closing?]

/-- The lines of the packed form of a struct in a permutation. -/
theorem bodies_bodyIn (hs : s.HasPlainStrings) (hhides : s.HidesPermutations count) (index : Nat) :
    Text.bodies (s.bodyIn a index) = Code.writtenLines 0 (s.packedCode (a.fieldsIn index)) := by
  have hfree : Code.IsBranchFree count (s.packedCode (a.fieldsIn index)) :=
    isBranchFree_packedCode hs hhides
  refine Code.bodies_text ((hfree.isKept 0).isOneLine 0) ?_
  rw [getLast?_packedCode]
  decide

end StructDescriptor

/-! ### Branches -/

/-- The permutations that the branches of a text ask for, branch by branch. -/
def branchSets (count : Nat) (text : String) : List (List Nat) :=
  (Text.bodies text).filterMap (branchIndices? count)

theorem Preprocessor.Branch.chosen_eq {α : Type} {branches : List (Branch α)} {left : List α}
    (hex : ∃ b ∈ branches, b.holds = true) (hleft : ∀ b ∈ branches, b.holds = true → b.left = left) :
    Branch.chosen branches = left := by
  obtain ⟨b, hb, hholds⟩ := hex
  cases hfind : branches.find? Branch.holds with
  | none => exact absurd hholds (List.find?_eq_none.mp hfind b hb)
  | some c =>
    rw [Branch.chosen, hfind, Option.map_some, Option.getD_some]
    exact hleft c (List.mem_of_find?_eq_some hfind) (List.find?_some hfind)

/-- The branch of a variant, as a permutation sees it. -/
def Variant.branch (index position : Nat) (v : Variant) : Branch String where
  directive := (Directive.branch position (permutationsCondition v.indices)).text
  holds := decide (index ∈ v.indices)
  lines := Text.bodies v.body
  left := Text.bodies v.body

theorem variantCode_cons (v : Variant) (rest : List Variant) :
    variantCode (v :: rest) =
      [.directive (.branch 0 (permutationsCondition v.indices)), .lines v.body] ++
        rest.flatMap (fun w =>
          [.directive (.branch 1 (permutationsCondition w.indices)), .lines w.body]) ++
        [.directive .endIf] := by
  have hlater : (rest.mapIdx fun position w =>
      [Code.directive (.branch (position + 1) (permutationsCondition w.indices)),
        Code.lines w.body]) = rest.map fun w =>
      [Code.directive (.branch 1 (permutationsCondition w.indices)), Code.lines w.body] :=
    List.ext_getElem (by simp) fun i _ _ => by simp [Directive.branch]
  rw [variantCode, List.mapIdx_cons, hlater, List.flatten_cons, List.flatMap_def]

/-- The lines of variants are those of their branches. -/
theorem writtenLines_variantCode (index : Nat) (v : Variant) (rest : List Variant) :
    Code.writtenLines 0 (variantCode (v :: rest)) =
      (v.branch index 0 :: rest.map (Variant.branch index 1)).flatMap Branch.text ++
        [Directive.endIf.text] := by
  have hbranch : ∀ (position : Nat) (w : Variant),
      Code.writtenLines 0
        [.directive (.branch position (permutationsCondition w.indices)), .lines w.body] =
      (w.branch index position).text := by
    intro position w
    have hunindented : lineBody 0 = id := funext Writer.lineBody_zero
    simp [Code.writtenLines, Code.writtenLine, Variant.branch, Branch.text, hunindented]
  rw [variantCode_cons, Code.writtenLines_append, Code.writtenLines_append,
    Code.writtenLines_flatMap, hbranch, List.flatMap_cons, List.flatMap_map]
  simp only [hbranch]
  simp [Code.writtenLines, Code.writtenLine]

namespace Variant

variable {v w : Variant} {rest : List Variant} {count index : Nat} {b : Branch String}

theorem exists_of_mem_branches (h : b ∈ v.branch index 0 :: rest.map (branch index 1)) :
    ∃ w ∈ v :: rest, ∃ position, b = w.branch index position := by
  rcases List.mem_cons.mp h with rfl | h
  · exact ⟨v, List.mem_cons_self, 0, rfl⟩
  · obtain ⟨w, hw, rfl⟩ := List.mem_map.mp h
    exact ⟨w, List.mem_cons_of_mem v hw, 1, rfl⟩

theorem lineRole_branch (position : Nat) (v : Variant) :
    lineRole (v.branch index position).directive =
      (directiveRole (.branch position (permutationsCondition v.indices))).map
        fun c => words c.text.toList := by
  have hrole := lineRole_directive 0 (.branch position (permutationsCondition v.indices))
  rwa [Writer.lineBody_zero] at hrole

theorem isOneLine_branch (position : Nat) (hne : v.indices ≠ []) :
    Text.IsOneLine (v.branch index position).directive :=
  isOneLine_directive fun c hc => by
    rw [Keywords.directiveCondition?_branch, Option.mem_some_iff] at hc
    exact hc ▸ isReadable_permutationsCondition hne

end Variant

namespace StructDescriptor

variable {s : StructDescriptor} {a : ActiveFields} {v : Variant} {rest : List Variant}
  {count index : Nat}

section Plain

variable (hs : s.HasPlainStrings) (hhides : s.HidesPermutations count)

include hs hhides

/-- The text of a permutation by itself asks for no permutation. -/
theorem branchSets_bodyIn (a : ActiveFields) (i : Nat) :
    branchSets count (s.bodyIn a i) = [] := by
  have hfree : Code.IsBranchFree count (s.packedCode (a.fieldsIn i)) :=
    isBranchFree_packedCode hs hhides
  rw [branchSets, bodies_bodyIn hs hhides, List.filterMap_eq_nil_iff]
  exact hfree.branchIndices?_eq_none 0

/-- It is kept, whatever permutation it is resolved for. -/
theorem yields_bodyIn (a : ActiveFields) (i index : Nat) :
    Yields lineRole (wordsValue (knownIn count index)) (Text.bodies (s.bodyIn a i))
      (Text.bodies (s.bodyIn a i)) := by
  have hfree : Code.IsBranchFree count (s.packedCode (a.fieldsIn i)) :=
    isBranchFree_packedCode hs hhides
  rw [bodies_bodyIn hs hhides]
  exact (hfree.isKept index).yields 0

theorem isOneLine_bodyIn (a : ActiveFields) (i : Nat) :
    ∀ line ∈ Text.bodies (s.bodyIn a i), Text.IsOneLine line := by
  have hfree : Code.IsBranchFree count (s.packedCode (a.fieldsIn i)) :=
    isBranchFree_packedCode hs hhides
  rw [bodies_bodyIn hs hhides]
  exact (hfree.isKept 0).isOneLine 0

variable (h : AreVariants (s.bodyIn a) (List.range count) (v :: rest))

include h

/-- The lines of variants in branches. -/
theorem bodies_variantCode (index : Nat) :
    Text.bodies (Code.text (variantCode (v :: rest))) =
      (v.branch index 0 :: rest.map (Variant.branch index 1)).flatMap Branch.text ++
        [Directive.endIf.text] := by
  rw [← writtenLines_variantCode index]
  refine Code.bodies_text ?_ ?_
  · rw [writtenLines_variantCode index]
    refine List.forall_mem_append.mpr ⟨fun line hline => ?_, List.forall_mem_singleton.mpr (by decide)⟩
    obtain ⟨b, hb, hline⟩ := List.mem_flatMap.mp hline
    obtain ⟨w, hw, position, rfl⟩ := Variant.exists_of_mem_branches hb
    rcases List.mem_cons.mp hline with rfl | hline
    · exact Variant.isOneLine_branch position (h.ne_nil w hw)
    · obtain ⟨i, -, hbody⟩ := h.exists_body hw
      have hline : line ∈ Text.bodies w.body := hline
      rw [hbody] at hline
      exact isOneLine_bodyIn hs hhides a i line hline
  · rw [writtenLines_variantCode index, List.getLast?_concat]
    decide

/-- The branches of variants ask for the permutations of the variants. -/
theorem branchSets_variantCode :
    branchSets count (Code.text (variantCode (v :: rest))) = (v :: rest).map Variant.indices := by
  have hbranch : ∀ w ∈ v :: rest, ∀ position,
      (w.branch 0 position).text.filterMap (branchIndices? count) = [w.indices] := by
    intro w hw position
    obtain ⟨i, -, hbody⟩ := h.exists_body hw
    have hdirective : branchIndices? count (w.branch 0 position).directive = some w.indices := by
      have hread := branchIndices?_branch 0 position (h.ne_nil w hw) (h.mem_indices_lt hw)
      rwa [Writer.lineBody_zero] at hread
    have hlines : branchSets count w.body = [] := hbody ▸ branchSets_bodyIn hs hhides a i
    have htext : (w.branch 0 position).text =
        (w.branch 0 position).directive :: Text.bodies w.body := rfl
    rw [branchSets] at hlines
    rw [htext, List.filterMap_cons, hdirective, hlines]
  have hclose : branchIndices? count Directive.endIf.text = none := by
    have hread : branchIndices? count (lineBody 0 Directive.endIf.text) = none :=
      branchIndices?_endIf 0
    rwa [Writer.lineBody_zero] at hread
  have hrest : ∀ w ∈ rest, (w.branch 0 1).text.filterMap (branchIndices? count) = [w.indices] :=
    fun w hw => hbranch w (List.mem_cons_of_mem v hw) 1
  rw [branchSets, bodies_variantCode hs hhides h 0, List.filterMap_append,
    List.filterMap_flatMap, List.flatMap_cons, List.flatMap_map, hbranch v List.mem_cons_self 0,
    List.flatMap_congr hrest, ← List.map_eq_flatMap]
  simp [hclose]

/-- What is left of variants in a permutation is the text of the permutation. -/
theorem preprocess_variantCode (hindex : index < count) :
    preprocess (knownIn count index) (Code.text (variantCode (v :: rest))) =
      Text.bodies (s.bodyIn a index) := by
  have hvalue : ∀ w ∈ v :: rest,
      wordsValue (knownIn count index) (words (permutationsCondition w.indices).text.toList) =
        some (decide (index ∈ w.indices)) :=
    fun w hw => wordsValue_permutationsCondition index (h.ne_nil w hw) (h.mem_indices_lt hw)
  have hleft : ∀ b ∈ v.branch index 0 :: rest.map (Variant.branch index 1),
      Yields lineRole (wordsValue (knownIn count index)) b.lines b.left := by
    intro b hb
    obtain ⟨w, hw, position, rfl⟩ := Variant.exists_of_mem_branches hb
    obtain ⟨i, -, hbody⟩ := h.exists_body hw
    have hkept := yields_bodyIn hs hhides a i index
    rw [← hbody] at hkept
    exact hkept
  have hcont : ∀ b ∈ rest.map (Variant.branch index 1),
      b.Continues lineRole (wordsValue (knownIn count index)) := by
    refine List.forall_mem_map.mpr fun w hw => Or.inl ⟨_, Variant.lineRole_branch 1 w, ?_⟩
    exact hvalue w (List.mem_cons_of_mem v hw)
  have hclose : lineRole Directive.endIf.text = .closes := by
    have hrole := Code.lineRole_endIf 0
    rwa [Writer.lineBody_zero] at hrole
  rw [preprocess, bodies_variantCode hs hhides h index,
    (yields_resolved (Variant.lineRole_branch 0 v) (hvalue v List.mem_cons_self) hcont hleft
      hclose).resolve_eq]
  -- the permutation is in one of the variants, and that has its text
  refine Branch.chosen_eq ?_ fun b hb hholds => ?_
  · obtain ⟨w, hw, hin⟩ := h.exists_mem hindex
    rcases List.mem_cons.mp hw with rfl | hw
    · exact ⟨_, List.mem_cons_self, decide_eq_true hin⟩
    · exact ⟨_, List.mem_cons_of_mem _ (List.mem_map_of_mem hw), decide_eq_true hin⟩
  · obtain ⟨w, hw, position, rfl⟩ := Variant.exists_of_mem_branches hb
    have hbody := h.body_eq w hw index (of_decide_eq_true hholds)
    exact congrArg Text.bodies hbody.symm

end Plain

/-- The packed form of a struct is its only variant, or all variants in branches. -/
theorem packedText_eq (s : StructDescriptor) (h : 0 < a.permutationCount) :
    (∃ v, s.variants a = [v] ∧ s.packedText a = v.body) ∨
      ∃ v w rest, s.variants a = v :: w :: rest ∧
        s.packedText a = Code.text (variantCode (v :: w :: rest)) := by
  have hall := s.areVariants_variants h
  unfold packedText
  cases hvariants : s.variants a with
  | nil =>
    rw [hvariants] at hall
    obtain ⟨v, hv, -⟩ := hall.exists_mem h
    exact absurd hv List.not_mem_nil
  | cons v rest =>
    cases rest with
    | nil => exact Or.inl ⟨v, rfl, rfl⟩
    | cons w rest => exact Or.inr ⟨v, w, rest, rfl, rfl⟩

/-- **The branches of a packed struct.**  Where there are branches, each permutation is asked for
by exactly one of them, and each of them asks for one.  There are none exactly if the packed
form is the same in all permutations.  In a permutation, what is left of the text is the packed
form that is generated for its fields alone. -/
theorem packedText_branches (hs : s.HasPlainStrings)
    (hhides : s.HidesPermutations a.permutationCount) (hcount : 2 ≤ a.permutationCount) :
    (branchSets a.permutationCount (s.packedText a) ≠ [] →
        (branchSets a.permutationCount (s.packedText a)).flatten.Perm
          (List.range a.permutationCount) ∧
        [] ∉ branchSets a.permutationCount (s.packedText a)) ∧
      (branchSets a.permutationCount (s.packedText a) = [] ↔
        ∀ i < a.permutationCount, ∀ j < a.permutationCount, s.bodyIn a i = s.bodyIn a j) ∧
      ∀ index < a.permutationCount, ∀ b, a.Isolates index b →
        preprocess (knownIn a.permutationCount index) (s.packedText a) =
          Text.bodies (s.packedText b) := by
  have hpos : 0 < a.permutationCount := by omega
  have hall := s.areVariants_variants hpos
  rw [← hall.eq_singleton_iff hpos]
  rcases s.packedText_eq hpos with ⟨v, hvariants, htext⟩ | ⟨v, w, rest, hvariants, htext⟩
  · -- the text is that of every permutation
    rw [hvariants] at hall ⊢
    obtain ⟨i, -, hbody⟩ := hall.exists_body List.mem_cons_self
    have hsets : branchSets a.permutationCount (s.packedText a) = [] := by
      rw [htext, hbody]
      exact branchSets_bodyIn hs hhides a i
    refine ⟨fun hne => absurd hsets hne, iff_of_true hsets ⟨v, rfl⟩, fun index hindex b hb => ?_⟩
    have hsame : v.body = s.bodyIn a index := by
      obtain ⟨u, hu, hin⟩ := hall.exists_mem hindex
      obtain rfl := List.mem_singleton.mp hu
      exact (hall.body_eq u hu index hin).symm
    rw [htext, hsame, packedText_of_isolates hb]
    exact (yields_bodyIn hs hhides a index index).resolve_eq
  · rw [hvariants] at hall ⊢
    have hsets := branchSets_variantCode hs hhides hall
    rw [htext, hsets]
    refine ⟨fun _ => ⟨?_, ?_⟩, iff_of_false (List.cons_ne_nil _ _) (by simp), fun index hindex b hb => ?_⟩
    · rw [← List.flatMap_def]
      exact hall.perm
    · intro hnil
      obtain ⟨u, hu, hempty⟩ := List.mem_map.mp hnil
      exact hall.ne_nil u hu hempty
    · rw [packedText_of_isolates hb]
      exact preprocess_variantCode hs hhides hall hindex

/-! ### A struct with two permutations -/

/-- Varyings with a member that instanced drawing has. -/
def detailVaryings : StructDescriptor where
  name := "Varyings"
  packFields := true
  fields := [
    { tag := "Varyings", name := "pos", type := some "float4", semantic := some "SV_POSITION" },
    { tag := "Varyings", name := "normal", type := some "$precision3" },
    { tag := "Varyings", name := "uv", type := some "float2" },
    { tag := "Varyings", name := "id", type := some "uint", preprocessor := some "INSTANCED" }]

theorem packedText_branches_detail :
    detailVaryings.HasPlainStrings ∧
      detailVaryings.HidesPermutations detailFields.permutationCount ∧
      2 ≤ detailFields.permutationCount ∧
      ∀ index < detailFields.permutationCount,
        preprocess (knownIn detailFields.permutationCount index)
            (detailVaryings.packedText detailFields) =
          Text.bodies (detailVaryings.packedText ⟨detailFields.fieldsIn index, []⟩) := by
  have hplain : detailVaryings.HasPlainStrings := by decide +kernel
  have hhides : detailVaryings.HidesPermutations detailFields.permutationCount := by
    decide +kernel
  have hcount : 2 ≤ detailFields.permutationCount := by decide
  obtain ⟨-, -, hleft⟩ := packedText_branches hplain hhides hcount
  exact ⟨hplain, hhides, hcount, fun index hindex =>
    hleft index hindex _ (detailFields.isolates_fieldsIn index)⟩

end StructDescriptor

end MaterialShader
