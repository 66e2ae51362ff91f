import MaterialShader.Proofs.ResolvedCode

/-!
# Sections in a permutation

The sections of a pass are generated once for all permutations, with a guard around each line
that some permutations lack.  Resolving the guards for one permutation gives the section that
would be generated for its fields alone.

The text of a section has no terminator behind its last line, so its lines are read as what line
feeds stand between.  A section with nothing to read in it is its placeholder, before as well as
after the guards are resolved.

## Main definitions

* `resolvedSection` — the lines of a section with its guards resolved.
* `StructDescriptor.HasPlainStrings`, `Pass.HasPlainStrings` — no string of a pass breaks or
  directs a line, guards of members aside.
* `Pass.guardedSections` — the sections of a pass that have guards.

## Main results

* `resolvedSection_codeOrNone` — the section of a program has the lines left of the program.
* `resolvedSection_of_isolates` — a section resolved for a permutation is the section of the
  permutation by itself.
-/

namespace MaterialShader

open Preprocessor
open Writer (lineBody)

/-! ### Resolving a section -/

/-- Lines as a section has them, the placeholder where there is nothing to read. -/
def linesOrPlaceholder (lines : List String) : List String :=
  if Text.isAllBlank (Text.joinLines lines) then [nonePlaceholder] else lines

/-- The lines of a section with its guards resolved, as far as symbols are known. -/
def resolvedSection (known : String → Option Bool) (text : String) : List String :=
  linesOrPlaceholder (resolve lineRole (wordsValue known) (Text.separated text))

namespace Preprocessor

variable {known : String → Option Bool}

theorem yields_text {α κ : Type} {role : α → Role κ} {value : κ → Option Bool} {lines : List α}
    (h : ∀ line ∈ lines, role line = .text) : Yields role value lines lines := by
  induction lines with
  | nil => exact Yields.nil
  | cons line lines ih =>
    obtain ⟨hline, hlines⟩ := List.forall_mem_cons.mp h
    exact (Yields.text hline).append (ih hlines)

theorem lineRole_of_isAllBlank {line : String} (h : Text.isAllBlank line = true) :
    lineRole line = .text := by
  rw [lineRole_eq_text_iff]
  intro hword
  have hsign : ∀ w ∈ directiveWords, '#' ∈ w := by decide
  -- the number sign of a directive is not blank
  have hmem : '#' ∈ line.toList :=
    (List.dropWhile_sublist _).mem ((List.takeWhile_sublist _).mem (hsign _ hword))
  exact absurd (List.all_eq_true.mp h _ hmem) (by decide)

end Preprocessor

theorem isAllBlank_of_joinLines {lines : List String}
    (h : Text.isAllBlank (Text.joinLines lines) = true) :
    ∀ line ∈ lines, Text.isAllBlank line = true := by
  induction lines with
  | nil => exact List.forall_mem_nil _
  | cons line lines ih =>
    by_cases hnil : lines = []
    · subst hnil
      have hline : Text.joinLines [line] = line := by simp [Text.joinLines]
      rw [hline] at h
      exact List.forall_mem_singleton.mpr h
    · rw [Text.joinLines_cons hnil] at h
      simp only [Text.isAllBlank, String.toList_append, List.all_append, Bool.and_eq_true] at h
      exact List.forall_mem_cons.mpr ⟨h.1.1, ih h.2⟩

variable {known : String → Option Bool} {count index : Nat}

theorem resolvedSection_linesOrNone {lines : List String}
    (h : ∀ line ∈ lines, '\n' ∉ line.toList) :
    resolvedSection known (linesOrNone lines) =
      linesOrPlaceholder (resolve lineRole (wordsValue known) lines) := by
  by_cases hblank : Text.isAllBlank (Text.joinLines lines) = true
  · -- blank lines are left as they are, and both sides are the placeholder
    have hleft : resolve lineRole (wordsValue known) lines = lines :=
      (yields_text fun line hline =>
        lineRole_of_isAllBlank (isAllBlank_of_joinLines hblank line hline)).resolve_eq
    have hnone : resolve lineRole (wordsValue known) [nonePlaceholder] = [nonePlaceholder] :=
      (Yields.text (by decide)).resolve_eq
    have hplaceholder : Text.separated nonePlaceholder = [nonePlaceholder] := by decide
    rw [hleft, linesOrNone, orNone, if_pos hblank, resolvedSection, hplaceholder, hnone,
      linesOrPlaceholder, linesOrPlaceholder, if_pos hblank, if_neg (by decide)]
  · have hne : lines ≠ [] := by
      rintro rfl
      exact hblank rfl
    rw [linesOrNone, orNone, if_neg hblank, resolvedSection, Text.separated_joinLines hne h]

/-- **The section of a program**, resolved, has the lines that are left of the program. -/
theorem resolvedSection_codeOrNone {code : List Code} {left : Nat → List String}
    (h : Code.LeavesLines known code left) :
    resolvedSection known (codeOrNone code) = linesOrPlaceholder (left 0) := by
  have hlines : codeOrNone code = linesOrNone (Code.writtenLines 0 code) := by
    rw [codeOrNone, Code.text_eq_joinLines, linesOrNone]
  rw [hlines, resolvedSection_linesOrNone fun line hline => (h.isOneLine 0 line hline).1,
    (h.yields 0).resolve_eq]

/-! ### Lines in some permutations -/

/-- No string of a struct breaks or directs a line, guards of members aside. -/
structure StructDescriptor.HasPlainStrings (s : StructDescriptor) : Prop where
  name : IsPlain s.name
  fields : ∀ d ∈ s.fields, d.HasPlainStrings

instance (s : StructDescriptor) : Decidable s.HasPlainStrings :=
  decidable_of_iff (IsPlain s.name ∧ ∀ d ∈ s.fields, d.HasPlainStrings)
    ⟨fun h => ⟨h.1, h.2⟩, fun h => ⟨h.1, h.2⟩⟩

/-- No string of the sections of a pass breaks or directs a line, guards of members aside. -/
structure Pass.HasPlainStrings (p : Pass) : Prop where
  structs : ∀ s ∈ p.structs, s.HasPlainStrings
  pragmas : ∀ l ∈ p.pragmas, IsPlain l.value
  defines : ∀ l ∈ p.defines, IsPlain l.value
  includes : ∀ i ∈ p.includes, IsPlain i.path
  keywords : ∀ k ∈ p.keywords, IsPlain k.declaration

instance (p : Pass) : Decidable p.HasPlainStrings :=
  decidable_of_iff
    ((∀ s ∈ p.structs, s.HasPlainStrings) ∧ (∀ l ∈ p.pragmas, IsPlain l.value) ∧
      (∀ l ∈ p.defines, IsPlain l.value) ∧ (∀ i ∈ p.includes, IsPlain i.path) ∧
      ∀ k ∈ p.keywords, IsPlain k.declaration)
    ⟨fun h => ⟨h.1, h.2.1, h.2.2.1, h.2.2.2.1, h.2.2.2.2⟩, fun h => ⟨h.1, h.2, h.3, h.4, h.5⟩⟩

theorem isPlain_define {symbol : String} (h : Text.IsOneLine symbol) :
    IsPlain ("#define " ++ symbol) :=
  ⟨Text.isOneLine_append.mpr ⟨by decide, h⟩,
    lineRole_of_word "#define".toList symbol.toList (by simp) (by decide)
      (by decide) (by decide)⟩

theorem isPlain_pragma {value : String} (h : Text.IsOneLine value) :
    IsPlain ("#pragma " ++ value) :=
  ⟨Text.isOneLine_append.mpr ⟨by decide, h⟩,
    lineRole_of_word "#pragma".toList value.toList (by simp) (by decide)
      (by decide) (by decide)⟩

theorem isPlain_include {path : String} (h : Text.IsOneLine path) :
    IsPlain ("#include \"" ++ path ++ "\"") :=
  ⟨Text.isOneLine_append.mpr ⟨Text.isOneLine_append.mpr ⟨by decide, h⟩, by decide⟩,
    lineRole_of_word "#include".toList ('"' :: path.toList ++ ['"']) (by simp) (by decide)
      (by decide) (by decide)⟩

theorem isPlain_struct {name : String} (h : Text.IsOneLine name) : IsPlain ("struct " ++ name) :=
  ⟨Text.isOneLine_append.mpr ⟨by decide, h⟩,
    lineRole_of_word "struct".toList name.toList (by simp) (by decide)
      (by decide) (by decide)⟩

section Shown

variable {a : ActiveFields} {fields : List Field}

/-- Lines under conditions leave those whose conditions hold of the fields. -/
theorem leavesLines_conditionalCode {lines : List (List FieldCondition × String)}
    (ha : a.Shows count index fields) (h : ∀ l ∈ lines, IsPlain l.2) :
    Code.LeavesLines (knownIn count index) (conditionalCode a lines) fun depth =>
      lines.flatMap fun l =>
        if FieldCondition.allHold l.1 fields then [lineBody depth l.2] else [] := by
  refine Code.LeavesLines.flatMap fun l hl => ?_
  have hbody : Code.LeavesLines (knownIn count index) [.line l.2] _ := .line (h l hl)
  have hline := hbody.inActive (ha.isSpread_condition l.1)
  simp only [ha.isIn_condition] at hline
  rw [Code.whereActive_eq]
  exact hline

/-- The symbols of members leave those of the members among the fields. -/
theorem leavesLines_fieldDefineCode {structs : List StructDescriptor}
    (ha : a.Shows count index fields) (h : ∀ s ∈ structs, s.HasPlainStrings) :
    Code.LeavesLines (knownIn count index) (fieldDefineCode structs a) fun depth =>
      (structs.flatMap (·.fields)).flatMap fun d =>
        if d.field ∈ fields then d.define.toList.map fun symbol => lineBody depth ("#define " ++ symbol)
        else [] := by
  refine Code.LeavesLines.flatMap fun d hd => ?_
  obtain ⟨s, hs, hd⟩ := List.mem_flatMap.mp hd
  cases hdefine : d.define with
  | none => simpa using Code.LeavesLines.nil
  | some symbol =>
    have hsymbol := (((h s hs).fields d hd).define symbol hdefine).1
    have hbody : Code.LeavesLines (knownIn count index) [.line ("#define " ++ symbol)] _ :=
      .line (isPlain_define hsymbol)
    have hline := hbody.inActive (ha.isSpread_activity d.field)
    simp only [ha.isIn_activity, ← Code.whereActive_eq] at hline
    exact hline

/-! ### Structs -/

/-- The lines of a struct that has the members among some fields. -/
def StructDescriptor.linesOf (known : String → Option Bool) (s : StructDescriptor)
    (fields : List Field) (depth : Nat) : List String :=
  lineBody depth ("struct " ++ s.name) ::
    (lineBody depth "\x7b" ::
      s.fields.flatMap (fun d => if d.field ∈ fields then d.memberLines known (depth + 1) else []) ++
      [lineBody depth "\x7d;"])

theorem leavesLines_struct {s : StructDescriptor} (ha : a.Shows count index fields)
    (h : s.HasPlainStrings) :
    Code.LeavesLines (knownIn count index) (s.code a) (s.linesOf (knownIn count index) fields) := by
  have hmembers : Code.LeavesLines (knownIn count index)
      (s.fields.flatMap fun d => d.memberCode (a.activity d.field)) fun depth =>
        s.fields.flatMap fun d =>
          if d.field ∈ fields then d.memberLines (knownIn count index) depth else [] := by
    refine Code.LeavesLines.flatMap fun d hd => ?_
    have hmember : Code.LeavesLines (knownIn count index) (d.memberCode (a.activity d.field)) _ :=
      FieldDescriptor.leavesLines_member (h.fields d hd) (ha.isSpread_activity d.field)
    simpa only [ha.isIn_activity] using hmember
  exact (Code.LeavesLines.line (isPlain_struct h.name.1)).append (hmembers.nested .declaration)

/-- Programs with an empty line between them. -/
def Code.separate (programs : List (List Code)) : List Code := [Code.newline].intercalate programs

theorem Code.separate_cons_cons (program next : List Code) (rest : List (List Code)) :
    Code.separate (program :: next :: rest) = program ++ [.newline] ++ Code.separate (next :: rest) :=
  List.intercalate_cons_cons

theorem Code.LeavesLines.separate {ι : Type} {items : List ι} {f : ι → List Code}
    {g : ι → Nat → List String} (h : ∀ i ∈ items, LeavesLines known (f i) (g i)) :
    LeavesLines known (Code.separate (items.map f)) fun depth =>
      [""].intercalate (items.map fun i => g i depth) := by
  induction items with
  | nil => exact nil
  | cons i items ih =>
    obtain ⟨hi, hitems⟩ := List.forall_mem_cons.mp h
    cases items with
    | nil => simpa [Code.separate] using hi
    | cons j items =>
      simp only [List.map_cons, Code.separate_cons_cons, List.intercalate_cons_cons]
      exact (hi.append newline).append (ih hitems)

theorem Code.writtenLines_separate_ne_nil {program : List Code} (rest : List (List Code))
    (h : writtenLines 0 program ≠ []) : writtenLines 0 (separate (program :: rest)) ≠ [] := by
  cases rest with
  | nil => simpa [separate] using h
  | cons next rest =>
    rw [separate_cons_cons, List.append_assoc, writtenLines_append]
    exact List.append_ne_nil_of_left_ne_nil h _

/-- Texts with an empty line between them are the text of programs with an empty line between
them. -/
theorem paragraphs_text {programs : List (List Code)}
    (h : ∀ program ∈ programs, Code.writtenLines 0 program ≠ []) :
    paragraphs (programs.map Code.text) = Code.text (Code.separate programs) := by
  induction programs with
  | nil => rfl
  | cons program programs ih =>
    obtain ⟨hprogram, hprograms⟩ := List.forall_mem_cons.mp h
    cases programs with
    | nil => simp [paragraphs, Code.separate]
    | cons next rest =>
      have hnext := Code.writtenLines_separate_ne_nil rest (hprograms next List.mem_cons_self)
      have hlines : Code.writtenLines 0 (Code.separate (program :: next :: rest)) =
          Code.writtenLines 0 program ++ "" :: Code.writtenLines 0 (Code.separate (next :: rest)) := by
        rw [Code.separate_cons_cons, List.append_assoc, Code.writtenLines_append]
        rfl
      have hjoined : Code.text (Code.separate (program :: next :: rest)) =
          Code.text program ++ "\n\n" ++ Code.text (Code.separate (next :: rest)) := by
        simp only [Code.text_eq_joinLines]
        rw [hlines, Text.joinLines_append hprogram (List.cons_ne_nil _ _),
          Text.joinLines_cons hnext, String.empty_append, ← String.append_assoc]
        exact congrArg (· ++ _) String.append_assoc
      rw [hjoined, ← ih hprograms]
      exact String.intercalate_cons_cons

/-- **The section of structs**, resolved for a permutation, has the structs with the members
among its fields. -/
theorem resolvedSection_structText {structs : List StructDescriptor}
    (ha : a.Shows count index fields) (h : ∀ s ∈ structs, s.HasPlainStrings) :
    resolvedSection (knownIn count index) (structText structs a) =
      linesOrPlaceholder ([""].intercalate
        (structs.map fun s => s.linesOf (knownIn count index) fields 0)) := by
  have htext : structText structs a =
      codeOrNone (Code.separate (structs.map fun s => s.code a)) := by
    rw [codeOrNone, ← paragraphs_text, List.map_map]
    · rfl
    · intro program hprogram
      obtain ⟨s, -, rfl⟩ := List.mem_map.mp hprogram
      exact List.cons_ne_nil _ _
  have hleft := Code.LeavesLines.separate fun s hs => leavesLines_struct ha (h s hs)
  rw [htext, resolvedSection_codeOrNone hleft]

end Shown

/-! ### The sections of a pass -/

/-- The sections of a pass that guard what some permutations lack. -/
def Pass.guardedSections (p : Pass) : List (ActiveFields → String) :=
  [structText p.structs, fieldDefineText p.structs, p.pragmaText, p.defineText,
    p.includeText .pregraph, p.includeText .postgraph, p.keywordText]

variable {a b : ActiveFields} {p : Pass}

/-- What a section has, resolved for a permutation, depends on the fields of the permutation
alone. -/
theorem resolvedSection_congr {fields : List Field} (ha : a.Shows count index fields)
    (hb : b.Shows count index fields) (hp : p.HasPlainStrings) :
    ∀ text ∈ p.guardedSections,
      resolvedSection (knownIn count index) (text a) =
        resolvedSection (knownIn count index) (text b) := by
  have hlines : ∀ lines : List (List FieldCondition × String), (∀ l ∈ lines, IsPlain l.2) →
      resolvedSection (knownIn count index) (codeOrNone (conditionalCode a lines)) =
        resolvedSection (knownIn count index) (codeOrNone (conditionalCode b lines)) :=
    fun lines h => (resolvedSection_codeOrNone (leavesLines_conditionalCode ha h)).trans
      (resolvedSection_codeOrNone (leavesLines_conditionalCode hb h)).symm
  simp only [Pass.guardedSections, List.forall_mem_cons]
  refine ⟨?_, ?_, ?_, ?_, ?_, ?_, ?_, List.forall_mem_nil _⟩
  · rw [resolvedSection_structText ha hp.structs, resolvedSection_structText hb hp.structs]
  · exact (resolvedSection_codeOrNone (leavesLines_fieldDefineCode ha hp.structs)).trans
      (resolvedSection_codeOrNone (leavesLines_fieldDefineCode hb hp.structs)).symm
  · exact hlines _ (List.forall_mem_map.mpr fun l hl => isPlain_pragma (hp.pragmas l hl).1)
  · exact hlines _ (List.forall_mem_map.mpr fun l hl => isPlain_define (hp.defines l hl).1)
  · exact hlines _ (List.forall_mem_map.mpr fun i hi =>
      isPlain_include (hp.includes i (List.mem_filter.mp hi).1).1)
  · exact hlines _ (List.forall_mem_map.mpr fun i hi =>
      isPlain_include (hp.includes i (List.mem_filter.mp hi).1).1)
  · exact hlines _ (List.forall_mem_map.mpr hp.keywords)

/-- **A section in a permutation.**  With its guards resolved for a permutation, a section has
the lines of the section that is generated for the fields of the permutation alone. -/
theorem resolvedSection_of_isolates (hp : p.HasPlainStrings) (h : index < a.permutationCount)
    (hb : a.Isolates index b) :
    ∀ text ∈ p.guardedSections,
      resolvedSection (knownIn a.permutationCount index) (text a) =
        resolvedSection (knownIn a.permutationCount index) (text b) :=
  resolvedSection_congr (ActiveFields.shows_fieldsIn h) (hb.shows h) hp

/-! ### A pass with two permutations -/

/-- A pass that passes a texture coordinate on, and drops pixels unless it is told not to. -/
def detailSections : Pass where
  structs := [{
    name := "Varyings"
    fields := [
      { tag := "Varyings", name := "pos", semantic := some "SV_POSITION" },
      { tag := "Varyings", name := "uv", type := some "$precision2", define := some "NEED_UV" },
      { tag := "Varyings", name := "id", type := some "uint", preprocessor := some "INSTANCED" }] }]
  pragmas := [{ value := "vertex vert" }]
  defines := [{ value := "CLIP 1", conditions := [{ field := .alphaClip }] }]
  includes := [{ path := "Core.hlsl" },
    { path := "Body.hlsl", location := .postgraph,
      conditions := [{ field := .alphaClip, expected := false }] }]
  keywords := [{ declaration := "#pragma multi_compile_fog" }]

/-- The coordinate is active in the first permutation, and pixels are dropped in the second. -/
def detailFields : ActiveFields where
  base := [.ofTag "Varyings" "pos", .ofTag "Varyings" "id"]
  permutations := [[.ofTag "Varyings" "uv"], [.alphaClip]]

theorem resolvedSection_of_isolates_detail :
    detailSections.HasPlainStrings ∧ 1 < detailFields.permutationCount ∧
      ∀ text ∈ detailSections.guardedSections,
        resolvedSection (knownIn detailFields.permutationCount 1) (text detailFields) =
          resolvedSection (knownIn detailFields.permutationCount 1)
            (text ⟨detailFields.fieldsIn 1, []⟩) := by
  have hplain : detailSections.HasPlainStrings := by decide +kernel
  have hindex : 1 < detailFields.permutationCount := by decide
  exact ⟨hplain, hindex,
    resolvedSection_of_isolates hplain hindex (detailFields.isolates_fieldsIn 1)⟩

end MaterialShader
