import MaterialShader.FilePlace
import MaterialShader.Proofs.SectionPermutation
import MaterialShader.Proofs.TemplateTranscript

/-!
# Templates in a permutation

A template is processed once for all permutations, with a group of its own around each line whose
field some permutations lack.  Resolving the groups for one permutation gives the lines that the
template has when it is processed for the fields of the permutation alone.

Both runs take the same way through the files, except that the run for the permutation alone goes
past what is not active there.  So it succeeds if the other does, and depends on no other files.
The comparison is made on transcripts: what a line leaves of its steps in the permutation is what
it writes there.

One thing differs.  Where a file ends with a line under a field that has no terminator, a line feed
is put in front of the directive that closes the group.  If the line ends with a carriage return,
then that becomes part of the terminator, and in the permutation alone it does not.

## Main definitions

* `Template.Step.IsPlain`, `HasPlainText` — no line of text directs the preprocessor.
* `Template.Context.EndsUnderField` — a file ends with a line under a field, without terminator.
* `Template.Leaves` — in a permutation, some steps are what is left of others.
* `Template.RunLeaves` — the same of the steps of two runs, if the first succeeds.

## Main results

* `Template.runLeaves_lineTranscript`, `Template.runLeaves_fileTranscript` — what a permutation
  leaves of a line and of a file.
* `processTemplate_of_isolates` — a template resolved for a permutation is the template processed
  for the permutation by itself.
-/

namespace MaterialShader

open Preprocessor
open Shading (Directive)

/-- The line stands under a field. -/
def TemplateLine.IsGuarded : TemplateLine → Prop
  | .guarded .. => True
  | _ => False

/-- Some file ends with a line under a field that has no terminator. -/
def Template.Context.EndsUnderField (ctx : Template.Context) : Prop :=
  ∃ file text, ctx.store.readText? file = some text ∧
    ∃ line ∈ Text.split text, line.ending = .none ∧ (TemplateLine.parse line.body).IsGuarded

namespace Template

variable {count index : Nat} {p : Prop}

/-! ### Steps in a permutation -/

/-- A line of text does not direct the preprocessor. -/
def Step.IsPlain : Step → Prop
  | .text line => outputRole line = .text
  | _ => True

instance : (s : Step) → Decidable s.IsPlain
  | .text line => inferInstanceAs (Decidable (outputRole line = .text))
  | .file _ => isTrue trivial
  | .directive _ _ => isTrue trivial

/-- In a permutation, some steps are what is left of others: with the groups resolved, the lines
of the others are theirs, and the others open the same files at least.  Where `p` holds, a line
that is left may have one more carriage return at its end. -/
structure Leaves (count index : Nat) (p : Prop) (steps left : List Step) : Prop where
  yields : ∃ lines, Yields outputRole (wordsValue (knownIn count index)) (linesOf steps) lines ∧
    List.Forall₂ (Text.MayReturn p) lines (linesOf left)
  files : filesOf left ⊆ filesOf steps

namespace Leaves

variable {steps left rest more : List Step}

theorem nil : Leaves count index p [] [] where
  yields := ⟨[], Yields.nil, .nil⟩
  files := List.Subset.refl _

theorem append (h : Leaves count index p steps left) (hrest : Leaves count index p rest more) :
    Leaves count index p (steps ++ rest) (left ++ more) where
  yields := by
    obtain ⟨lines, hlines, hleft⟩ := h.yields
    obtain ⟨lines', hlines', hmore⟩ := hrest.yields
    rw [linesOf_append, linesOf_append]
    exact ⟨lines ++ lines', hlines.append hlines', List.rel_append hleft hmore⟩
  files := by
    rw [filesOf_append, filesOf_append]
    exact List.append_subset.mpr ⟨List.subset_append_of_subset_left _ h.files,
      List.subset_append_of_subset_right _ hrest.files⟩

theorem file (path : Path) : Leaves count index p [.file path] [.file path] where
  yields := ⟨[], Yields.nil, .nil⟩
  files := List.Subset.refl _

/-- A text stays, whichever terminator it waits for. -/
theorem text {s : String} {ending after after' : Text.Ending}
    (hafter : ending = .none → after.MayShorten p after')
    (h : ∀ step ∈ textSteps after (s ++ ending.text), step.IsPlain) :
    Leaves count index p (textSteps after (s ++ ending.text))
      (textSteps after' (s ++ ending.text)) where
  yields := by
    rw [linesOf_textSteps, linesOf_textSteps]
    exact ⟨_, yields_text fun line hline => h _ (List.mem_map_of_mem hline),
      Text.forall₂_bodies_ending s hafter⟩
  files := by rw [filesOf_textSteps, filesOf_textSteps]; exact List.Subset.refl _

/-- A group that is put in leaves its steps in its permutations, and nothing in the others. -/
theorem guarded {indent : String} (hindent : Text.IsIndentation indent) {indices : List Nat}
    (hindices : (Activity.permutations indices).IsSpread count)
    (h : Leaves count index p steps left) :
    Leaves count index p (guardedSteps indent indices steps)
      (if index ∈ indices then left else []) where
  yields := by
    obtain ⟨lines, hlines, hleft⟩ := h.yields
    have hopen : outputRole (indent ++ (Directive.ifTrue (permutationsCondition indices)).text) =
        .opens (words (permutationsCondition indices).text.toList) :=
      outputRole_directive hindent _
    have hclose : outputRole (indent ++ Directive.endIf.text) = .closes :=
      outputRole_directive hindent _
    have hgroup := yields_single hopen
      (wordsValue_permutationsCondition index hindices.1 hindices.2) hlines hclose
    simp only [decide_eq_true_eq] at hgroup
    rw [guardedSteps, linesOf_append, linesOf_append, linesOf_directive, linesOf_directive]
    refine ⟨_, hgroup, ?_⟩
    split
    · exact hleft
    · exact .nil
  files := by
    rw [guardedSteps, filesOf_append, filesOf_append, filesOf_directive, filesOf_directive,
      List.append_nil, List.nil_append]
    split
    · exact h.files
    · exact List.nil_subset _

end Leaves

/-- Where one run succeeds and writes plain text, the other succeeds, and its steps are what is
left of those of the first. -/
def RunLeaves (count index : Nat) (p : Prop) (run alone : Except GenerationError (List Step)) :
    Prop :=
  ∀ steps, run = .ok steps → (∀ s ∈ steps, s.IsPlain) →
    ∃ left, alone = .ok left ∧ Leaves count index p steps left

namespace RunLeaves

variable {run alone rest more : Except GenerationError (List Step)}

theorem nil : RunLeaves count index p (.ok []) (.ok []) :=
  fun _ hok _ => ⟨[], rfl, Except.ok.inj hok ▸ Leaves.nil⟩

theorem error (e : GenerationError) : RunLeaves count index p (.error e) alone :=
  fun _ hok => absurd hok nofun

theorem append (h : RunLeaves count index p run alone) (hrest : RunLeaves count index p rest more) :
    RunLeaves count index p (do return (← run) ++ (← rest)) (do return (← alone) ++ (← more)) := by
  intro steps hok hplain
  obtain ⟨first, hfirst, hok⟩ := Outcome.bind_eq_ok_iff.mp hok
  obtain ⟨later, hlater, hok⟩ := Outcome.bind_eq_ok_iff.mp hok
  rw [← Outcome.pure_eq_ok_iff.mp hok] at hplain ⊢
  obtain ⟨hplainFirst, hplainLater⟩ := List.forall_mem_append.mp hplain
  obtain ⟨left, rfl, hleaves⟩ := h first hfirst hplainFirst
  obtain ⟨left', rfl, hleaves'⟩ := hrest later hlater hplainLater
  exact ⟨left ++ left', rfl, hleaves.append hleaves'⟩

/-- A run that opens a file first. -/
theorem file (path : Path) (h : RunLeaves count index p run alone) :
    RunLeaves count index p (do return [.file path] ++ (← run))
      (do return [.file path] ++ (← alone)) := by
  intro steps hok hplain
  obtain ⟨later, hlater, hok⟩ := Outcome.bind_eq_ok_iff.mp hok
  rw [← Outcome.pure_eq_ok_iff.mp hok] at hplain ⊢
  obtain ⟨left, rfl, hleaves⟩ := h later hlater (List.forall_mem_append.mp hplain).2
  exact ⟨[.file path] ++ left, rfl, (Leaves.file path).append hleaves⟩

/-- A run inside a group is left in the permutations of the group, and goes past in the others. -/
theorem guarded {indent : String} (hindent : Text.IsIndentation indent) {indices : List Nat}
    (hindices : (Activity.permutations indices).IsSpread count)
    (h : RunLeaves count index p run alone) :
    RunLeaves count index p (do return guardedSteps indent indices (← run))
      (if index ∈ indices then alone else .ok []) := by
  intro steps hok hplain
  obtain ⟨inside, hinside, hok⟩ := Outcome.bind_eq_ok_iff.mp hok
  rw [← Outcome.pure_eq_ok_iff.mp hok] at hplain ⊢
  obtain ⟨left, rfl, hleaves⟩ := h inside hinside fun s hs =>
    hplain s (List.mem_append_left _ (List.mem_append_right _ hs))
  refine ⟨_, ?_, hleaves.guarded hindent hindices⟩
  split <;> rfl

end RunLeaves

/-! ### Lines in a permutation -/

section Line

variable {ctx : Context} {b : ActiveFields} {file : Path} {indent : String}
  {ending after after' : Text.Ending}
  {included alone : Text.Ending → Path → String → Except GenerationError (List Step)}

/-- What a text stands for does not depend on the fields. -/
theorem expand_active (ctx : Context) (b : ActiveFields) (file : Path) (indent : List Char)
    (pieces : List Piece) :
    expand { ctx with active := b } file indent pieces = expand ctx file indent pieces :=
  expand_eq_of_sections (by rfl) file indent pieces

/-- **A line in a permutation.**  What the permutation leaves of the steps for a line are the
steps for the fields of the permutation alone. -/
theorem runLeaves_lineTranscript (hdebug : ctx.debug = false)
    (h : index < ctx.active.permutationCount) (hb : ctx.active.Isolates index b)
    (hincluded : ∀ {after after' : Text.Ending} target {indent}, after.MayShorten p after' →
      Text.IsIndentation indent → RunLeaves ctx.active.permutationCount index p
        (included after target indent) (alone after' target indent))
    (hindent : Text.IsIndentation indent) {line : TemplateLine} (hline : line.IsIndented)
    (hguarded : ending = .none → line.IsGuarded → p)
    (hafter : ending = .none → after.MayShorten p after') :
    RunLeaves ctx.active.permutationCount index p
      (lineTranscript ctx file included indent ending after line)
      (lineTranscript { ctx with active := b } file alone indent ending after' line) := by
  induction line generalizing after with
  | guarded lead field rest inner ih =>
    obtain ⟨hlead, hinner⟩ := hline
    have hopen : ending = .none → p := fun hending => hguarded hending trivial
    have hspread : (ctx.active.activity field).IsSpread ctx.active.permutationCount :=
      ActiveFields.isSpread_activity
    have hactive := hb.activity_eq h field
    unfold lineTranscript
    cases hactivity : ctx.active.activity field with
    | always =>
      rw [hactivity] at hactive
      rw [hactive]
      exact ih hinner (fun hending _ => hopen hending) hafter
    | permutations indices =>
      rw [hactivity] at hactive hspread
      -- the group is closed behind a line feed, if the line has no terminator of its own
      have hgroup := (ih hinner (fun hending _ => hopen hending) fun hending =>
        Or.inr ⟨rfl, hopen hending⟩).guarded (hindent.append hlead) hspread
      have hin : (Activity.permutations indices).IsIn index ↔ index ∈ indices := Iff.rfl
      rw [hactive]
      by_cases hindex : index ∈ indices
      · rw [if_pos hindex] at hgroup
        rw [decide_eq_true (hin.mpr hindex)]
        exact hgroup
      · -- the permutation alone goes past the line
        rw [if_neg hindex] at hgroup
        rw [decide_eq_false (mt hin.mp hindex), hdebug]
        exact hgroup
    | never =>
      rw [hactivity] at hactive
      rw [hactive, hdebug]
      exact .nil
  | included lead path => exact hincluded _ (.orElse hafter) (hindent.append hline)
  | text lead pieces =>
    intro steps hok hplain
    unfold lineTranscript at hok ⊢
    rw [expand_active]
    obtain ⟨chars, hchars, hsteps⟩ := Outcome.bind_eq_ok_iff.mp hok
    rw [← Outcome.pure_eq_ok_iff.mp hsteps] at hplain ⊢
    exact ⟨_, Outcome.bind_eq_ok_iff.mpr ⟨chars, hchars, rfl⟩, Leaves.text hafter hplain⟩

theorem runLeaves_linesTranscript {f g : Text.Line → Except GenerationError (List Step)}
    {lines : List Text.Line} (h : ∀ line ∈ lines, RunLeaves count index p (f line) (g line)) :
    RunLeaves count index p (linesTranscript f lines) (linesTranscript g lines) := by
  induction lines with
  | nil => exact .nil
  | cons line lines ih =>
    obtain ⟨hline, hlines⟩ := List.forall_mem_cons.mp h
    exact hline.append (ih hlines)

theorem runLeaves_includedTranscript {opened : List Path} {target : Path}
    (h : RunLeaves count index p (included after target indent) (alone after' target indent)) :
    RunLeaves count index p (includedTranscript ctx opened file included after target indent)
      (includedTranscript { ctx with active := b } opened file alone after' target indent) := by
  unfold includedTranscript
  split
  · exact .error _
  · split
    · exact .error _
    · exact h

end Line

/-! ### Files in a permutation -/

/-- **A file in a permutation.**  What the permutation leaves of the steps for a file are the
steps for the fields of the permutation alone. -/
theorem runLeaves_fileTranscript {ctx : Context} {b : ActiveFields} (hdebug : ctx.debug = false)
    (h : index < ctx.active.permutationCount) (hb : ctx.active.Isolates index b) (fuel : Nat)
    (opened : List Path) {after after' : Text.Ending} (path : Path)
    (hafter : after.MayShorten ctx.EndsUnderField after') {indent : String}
    (hindent : Text.IsIndentation indent) :
    RunLeaves ctx.active.permutationCount index ctx.EndsUnderField
      (fileTranscript ctx fuel opened after path indent)
      (fileTranscript { ctx with active := b } fuel opened after' path indent) := by
  induction fuel generalizing opened after after' path indent with
  | zero => exact .error _
  | succ fuel ih =>
    unfold fileTranscript
    cases htext : ctx.store.readText? path with
    | none => exact .error _
    | some text =>
      have hline : ∀ line ∈ Text.split text,
          RunLeaves ctx.active.permutationCount index ctx.EndsUnderField
            (lineTranscript ctx path (includedTranscript ctx opened path
              (fileTranscript ctx fuel (path :: opened))) indent line.ending after
              (TemplateLine.parse line.body))
            (lineTranscript { ctx with active := b } path
              (includedTranscript { ctx with active := b } opened path
                (fileTranscript { ctx with active := b } fuel (path :: opened))) indent
              line.ending after' (TemplateLine.parse line.body)) := by
        intro line hline
        refine runLeaves_lineTranscript hdebug h hb (fun target _ hafter hinner => ?_) hindent
          (isIndented_parse (Text.newline_notMem_body hline)) (fun hending hguarded => ?_)
          fun _ => hafter
        · exact runLeaves_includedTranscript (ih (path :: opened) target hafter hinner)
        · exact ⟨path, text, htext, line, hline, hending, hguarded⟩
      exact (runLeaves_linesTranscript hline).file path

end Template

/-! ### Templates in a permutation -/

open Template (Step Progress linesOf)

/-- No line of text that processing a template writes directs the preprocessor. -/
def HasPlainText (ctx : Template.Context) (path : Path) : Prop :=
  ∀ steps, templateTranscript ctx path = .ok steps → ∀ s ∈ steps, s.IsPlain

/-- **A template in a permutation.**  If a template is processed, then so it is for the fields of
a permutation alone.  Every directive that is put in stands on a line of its own, the lines that
are left when the groups are resolved for the permutation are the lines for the permutation
alone, and the files that these come from are among the files of all.

If a file ends with a line under a field that has no terminator, then a line for the permutation
alone may have one more carriage return at its end.  Where no line has one there, the lines are the
same in any case. -/
theorem processTemplate_of_isolates {ctx : Template.Context} {b : ActiveFields} {index : Nat}
    {path : Path} {result : Option Progress} (hdebug : ctx.debug = false)
    (h : index < ctx.active.permutationCount) (hb : ctx.active.Isolates index b)
    (hplain : HasPlainText ctx path) (hok : processTemplate ctx path = .ok result) :
    ∃ alone, processTemplate { ctx with active := b } path = .ok alone ∧
      Option.Rel
        (fun out out' =>
          (∃ steps, templateTranscript ctx path = .ok steps ∧
            Text.bodies out.text = linesOf steps) ∧
          List.Forall₂ (Text.MayReturn ctx.EndsUnderField)
            (resolve outputRole (wordsValue (knownIn ctx.active.permutationCount index))
              (Text.bodies out.text))
            (Text.bodies out'.text) ∧
          ((¬ctx.EndsUnderField ∨
              ∀ line ∈ Text.bodies out'.text, line.toList.getLast? ≠ some '\r') →
            resolve outputRole (wordsValue (knownIn ctx.active.permutationCount index))
              (Text.bodies out.text) = Text.bodies out'.text) ∧
          ∀ d ∈ out'.dependencies, d.isAmong out.dependencies = true)
        result alone := by
  cases hfile : ctx.store.isFile path with
  | false =>
    rw [processTemplate, hfile] at hok
    refine ⟨none, ?_, ?_⟩
    · rw [processTemplate, hfile]
      rfl
    · rw [← Except.ok.inj hok]
      exact .none
  | true =>
    obtain ⟨steps, hsteps, out, rfl, hbodies, hdependencies⟩ :=
      (agree_processTemplate hfile).exists_right hok
    obtain ⟨left, hleft, hleaves⟩ := Template.runLeaves_fileTranscript hdebug h hb _ [] path
      (Or.inl rfl) Text.isIndentation_empty steps hsteps (hplain steps hsteps)
    have hfile' : ({ ctx with active := b } : Template.Context).store.isFile path = true := hfile
    obtain ⟨alone, halone, out', rfl, hbodies', hdependencies'⟩ :=
      (agree_processTemplate hfile').exists_left hleft
    obtain ⟨lines, hyields, hlines⟩ := hleaves.yields
    rw [← hbodies'] at hlines
    rw [← hbodies] at hyields
    refine ⟨some out', halone, .some ⟨⟨steps, hsteps, hbodies⟩, ?_, fun hsame => ?_,
      fun d hd => ?_⟩⟩
    · rw [hyields.resolve_eq]
      exact hlines
    · rw [hyields.resolve_eq]
      exact Text.eq_of_forall₂_mayReturn hlines hsame
    · rw [hdependencies'] at hd
      rw [hdependencies]
      have hopened := (Template.mem_of_mem_foldl_withFile hd).resolve_left List.not_mem_nil
      exact Template.isAmong_foldl_withFile (Or.inr (hleaves.files hopened))

/-! ### Templates with two permutations -/

/-- A template whose lines differ in their terminators.  What it includes in the first
permutation has none at all, and neither has its last line, which is for the second. -/
def layeredTemplate : Template.Context where
  store := FileStore.lookup ⟨[], [
    (["T"], .text "$V.a: $include(\"I\")\r\n$splice(B)\n$V.b: z"),
    (["I"], .text "x")]⟩
  sharedDir := ⟨""⟩
  sections := [("B", "p\nq")]
  active := ⟨[], [[⟨"V.a"⟩], [⟨"V.b"⟩]]⟩
  debug := false

/-- A condition on transcripts that is checked by running them. -/
theorem hasPlainText_of_check {ctx : Template.Context} {path : Path}
    (h : (templateTranscript ctx path).toOption.any
      (fun steps => steps.all fun s => decide s.IsPlain) = true) : HasPlainText ctx path := by
  obtain ⟨steps, hsteps, hall⟩ := Outcome.exists_of_check h
  intro steps' hsteps' s hs
  rw [Except.ok.inj (hsteps'.symm.trans hsteps)] at hs
  exact of_decide_eq_true (List.all_eq_true.mp hall s hs)

theorem processTemplate_of_isolates_layered :
    HasPlainText layeredTemplate ⟨"T"⟩ ∧
      processTemplate { layeredTemplate with active := ⟨[⟨"V.a"⟩], []⟩ } ⟨"T"⟩ =
        .ok (some ⟨"x\r\np\nq\n", [⟨"T"⟩, ⟨"I"⟩]⟩) ∧
      ∃ out, processTemplate layeredTemplate ⟨"T"⟩ = .ok (some out) ∧
        (∃ steps, templateTranscript layeredTemplate ⟨"T"⟩ = .ok steps ∧
          Text.bodies out.text = linesOf steps) ∧
        resolve outputRole (wordsValue (knownIn 2 0)) (Text.bodies out.text) = ["x", "p", "q"] := by
  have hplain : HasPlainText layeredTemplate ⟨"T"⟩ := hasPlainText_of_check (by decide +kernel)
  have hfound : (processTemplate layeredTemplate ⟨"T"⟩).toOption.any Option.isSome = true := by
    decide +kernel
  have hfound' : processTemplate { layeredTemplate with active := ⟨[⟨"V.a"⟩], []⟩ } ⟨"T"⟩ =
      .ok (some ⟨"x\r\np\nq\n", [⟨"T"⟩, ⟨"I"⟩]⟩) := by decide +kernel
  obtain ⟨result, hresult, hsome⟩ := Outcome.exists_of_check hfound
  obtain ⟨out, rfl⟩ := Option.isSome_iff_exists.mp hsome
  have hindex : 0 < layeredTemplate.active.permutationCount := by decide
  obtain ⟨alone, halone, hrel⟩ := processTemplate_of_isolates rfl hindex
    (layeredTemplate.active.isolates_fieldsIn 0) hplain hresult
  obtain rfl := Except.ok.inj (hfound'.symm.trans halone)
  cases hrel with
  | @some _ out' h =>
    refine ⟨hplain, hfound', out, hresult, h.1, ?_⟩
    exact h.2.2.1 (Or.inr (by decide +kernel))

/-- A template whose only line, for the first permutation, ends with a carriage return. -/
def returnTemplate : Template.Context where
  store := FileStore.lookup ⟨[], [(["T"], .text "$V.a: $splice(A)")]⟩
  sharedDir := ⟨""⟩
  sections := [("A", "x\r")]
  active := ⟨[], [[⟨"V.a"⟩], []]⟩
  debug := false

/-- A carriage return at the end of a line becomes part of its terminator, where that is put in. -/
theorem exists_lines_ne_of_return :
    ∃ (ctx : Template.Context) (b : ActiveFields) (index : Nat) (path : Path) (out out' : Progress),
      ctx.debug = false ∧ 2 ≤ ctx.active.permutationCount ∧
        index < ctx.active.permutationCount ∧ ctx.active.Isolates index b ∧
        HasPlainText ctx path ∧ processTemplate ctx path = .ok (some out) ∧
        processTemplate { ctx with active := b } path = .ok (some out') ∧
        resolve outputRole (wordsValue (knownIn ctx.active.permutationCount index))
            (Text.bodies out.text) = ["x"] ∧
        Text.bodies out'.text = ["x\r"] := by
  refine ⟨returnTemplate, _, 0, ⟨"T"⟩,
    ⟨"#if defined(KEYWORD_PERMUTATION_0)\nx\r\n#endif", [⟨"T"⟩]⟩, ⟨"x\r", [⟨"T"⟩]⟩,
    rfl, by decide, by decide, returnTemplate.active.isolates_fieldsIn 0,
    hasPlainText_of_check (by decide +kernel), by decide +kernel, by decide +kernel,
    by decide +kernel, by decide +kernel⟩

end MaterialShader
