import MaterialShader.Proofs.TemplateTranscript
import MaterialShader.Template.Shipped

/-!
# When templates are processed

Processing a template can fail in four ways: a token has no section, an included file is not
there, is being processed already, or is no text.  All of them can be read off the lines.  So a
template is processed if its lines name sections that there are and files that are there, and if
the files it includes include nothing more: they have other names, and so none of them is the
template.

## Main definitions

* `GenerationError.IsOfTemplate` — the errors of templates.
* `TemplateLine.tokens`, `TemplateLine.includes` — the tokens and the files that a line names.
* `Template.AsksOnly` — a text names no other tokens and files than the given ones.

## Main results

* `Path.sameAs_join_join` — files of different names are different files.
* `failsOnly_processTemplate` — the errors of a template.
* `Template.exists_templateTranscript` — a template whose lines name what is there is processed.
-/

namespace MaterialShader

open Outcome (FailsOnly)

/-! ### Files of a directory -/

namespace Path

/-- The name can stand as the last component of a path. -/
def IsFileName (name : String) : Prop := name ≠ "" ∧ name ≠ "." ∧ '/' ∉ name.toList

instance (name : String) : Decidable (IsFileName name) := inferInstanceAs (Decidable (_ ∧ _))

variable {name : String}

theorem splitAt_eq_splitOn (sep : Char) (cs : List Char) : splitAt sep cs = cs.splitOn sep := by
  induction cs with
  | nil => rfl
  | cons c cs ih =>
    rw [splitAt, ih, List.splitOn_cons_eq_if_modifyHead]
    obtain ⟨part, parts, hparts⟩ := List.exists_cons_of_ne_nil (List.splitOn_ne_nil sep cs)
    rw [hparts]
    by_cases h : c = sep
    · simp [h]
    · simp [h]

/-- The last segment of a file in a directory is its name. -/
theorem exists_segments_join (directory : Path) (h : IsFileName name) :
    ∃ front, (directory.join ⟨name⟩).segments = front ++ [name] := by
  obtain ⟨-, -, hslash⟩ := h
  have hname : name.toList.splitOn '/' = [name.toList] := List.splitOn_eq_singleton hslash
  have hrelative : (⟨name⟩ : Path).isAbsolute = false := by
    rw [isAbsolute, beq_eq_false_iff_ne]
    exact fun hhead => hslash (List.mem_of_head? hhead)
  -- the directory and the name stand on two sides of a slash, unless the directory is empty
  have hbehind : ∀ front : List Char,
      ((splitAt '/' (front ++ '/' :: name.toList)).map String.ofList) =
        ((front.splitOn '/').map String.ofList) ++ [name] := by
    intro front
    rw [splitAt_eq_splitOn, List.splitOn_append_cons_self, List.map_append, hname, List.map_singleton,
      String.ofList_toList]
  rw [join, hrelative, if_neg Bool.false_ne_true]
  by_cases hempty : directory.text = ""
  · refine ⟨[], ?_⟩
    rw [hempty]
    simp [segments, splitAt_eq_splitOn, hname]
  · by_cases hlast : directory.text.toList.getLast? = some '/'
    · obtain ⟨front, hfront⟩ := List.getLast?_eq_some_iff.mp hlast
      refine ⟨(front.splitOn '/').map String.ofList, ?_⟩
      rw [hlast, if_pos (by simp), segments, String.toList_append, hfront, List.append_assoc]
      exact hbehind front
    · refine ⟨(directory.text.toList.splitOn '/').map String.ofList, ?_⟩
      rw [if_neg (by simp [hempty, hlast]), segments, String.toList_append, String.toList_append,
        List.append_assoc]
      exact hbehind directory.text.toList

theorem getLast?_components_join (directory : Path) (h : IsFileName name) :
    (directory.join ⟨name⟩).components.getLast? = some name := by
  obtain ⟨front, hfront⟩ := exists_segments_join directory h
  obtain ⟨hempty, hpoint, -⟩ := h
  rw [components, hfront, List.filter_append]
  simp [hempty, hpoint]

/-- **Files of different names are different files**, whatever their directories are. -/
theorem sameAs_join_join {other : String} (directory directory' : Path) (h : IsFileName name)
    (hother : IsFileName other) (hne : name ≠ other) :
    (directory.join ⟨name⟩).sameAs (directory'.join ⟨other⟩) = false := by
  rw [← Bool.not_eq_true, sameAs_iff]
  intro hsame
  have hlast := congrArg List.getLast? hsame
  rw [getLast?_components_join directory h, getLast?_components_join directory' hother] at hlast
  exact hne (Option.some.inj hlast)

end Path

/-! ### What lines name -/

/-- The errors of templates. -/
def GenerationError.IsOfTemplate : GenerationError → Prop
  | .missingSpliceToken _ _ | .includeNotFound _ _ | .recursiveInclude _ _ |
    .unreadableTemplate _ => True
  | _ => False

namespace Template

/-- The token that a piece of a line is. -/
def Piece.token? : Piece → Option String
  | .char _ => none
  | .token name => some name

end Template

namespace TemplateLine

/-- The tokens that a line names. -/
def tokens : TemplateLine → List String
  | .guarded _ _ _ inner => inner.tokens
  | .included _ _ => []
  | .text _ pieces => pieces.filterMap Template.Piece.token?

/-- The files that a line includes. -/
def includes : TemplateLine → List String
  | .guarded _ _ _ inner => inner.includes
  | .included _ path => [path]
  | .text _ _ => []

end TemplateLine

namespace Template

open GenerationError (IsOfTemplate)

variable {ctx : Context} {P : GenerationError → Prop} {file path : Path} {names paths : List String}
  {text : String}

/-! ### The errors of lines and files -/

theorem failsOnly_expand {indent : List Char} {pieces : List Piece}
    (h : ∀ name ∈ pieces.filterMap Piece.token?, ctx.sections.get? name = none →
      P (.missingSpliceToken name file)) : FailsOnly P (expand ctx file indent pieces) := by
  induction pieces with
  | nil => exact FailsOnly.ok []
  | cons piece pieces ih =>
    cases piece with
    | char c => exact FailsOnly.map (ih h)
    | token name =>
      obtain ⟨hname, hrest⟩ := List.forall_mem_cons.mp h
      rw [expand]
      cases hsection : ctx.sections.get? name with
      | none => exact FailsOnly.error (hname hsection)
      | some text => exact FailsOnly.map (ih hrest)

/-- The errors of a line are those of its tokens and of the files it includes. -/
theorem failsOnly_lineTranscript
    {included : Text.Ending → Path → String → Except GenerationError (List Step)}
    {indent : String} {ending after : Text.Ending} {line : TemplateLine}
    (htokens : ∀ name ∈ line.tokens, ctx.sections.get? name = none →
      P (.missingSpliceToken name file))
    (hincludes : ∀ name ∈ line.includes, ∀ after indent,
      FailsOnly P (included after (ctx.sharedDir.join ⟨name⟩) indent)) :
    FailsOnly P (lineTranscript ctx file included indent ending after line) := by
  induction line generalizing after with
  | guarded lead field rest inner ih =>
    rw [lineTranscript]
    cases ctx.active.activity field with
    | always => exact ih htokens hincludes
    | permutations indices => exact FailsOnly.map (ih htokens hincludes)
    | never => exact FailsOnly.ok _
  | included lead name => exact hincludes name (List.mem_singleton_self name) _ _
  | text lead pieces => exact FailsOnly.map (failsOnly_expand htokens)

theorem failsOnly_linesTranscript {f : Text.Line → Except GenerationError (List Step)}
    {lines : List Text.Line} (h : ∀ line ∈ lines, FailsOnly P (f line)) :
    FailsOnly P (linesTranscript f lines) := by
  induction lines with
  | nil => exact FailsOnly.ok []
  | cons line lines ih =>
    obtain ⟨hline, hlines⟩ := List.forall_mem_cons.mp h
    exact FailsOnly.bind hline fun steps _ => FailsOnly.map (ih hlines)

/-- What is transcribed fails like its transcript. -/
theorem failsOnly_processTemplate_of_transcript (h : FailsOnly P (templateTranscript ctx path)) :
    FailsOnly P (processTemplate ctx path) := by
  by_cases hfile : ctx.store.isFile path = true
  · have hagree := agree_processTemplate hfile
    intro e he
    rw [he] at hagree
    cases htranscript : templateTranscript ctx path with
    | ok steps => rw [htranscript] at hagree; exact hagree.elim
    | error e' =>
      rw [htranscript] at hagree
      exact h e (htranscript.trans (congrArg _ (hagree : e = e').symm))
  · rw [processTemplate, if_pos (by simpa using hfile)]
    exact FailsOnly.ok none

theorem failsOnly_fileTranscript (fuel : Nat) (opened : List Path) (after : Text.Ending)
    (path : Path) (indent : String) :
    FailsOnly IsOfTemplate (fileTranscript ctx fuel opened after path indent) := by
  induction fuel generalizing opened after path indent with
  | zero => exact FailsOnly.error trivial
  | succ fuel ih =>
    rw [fileTranscript]
    cases ctx.store.readText? path with
    | none => exact FailsOnly.error trivial
    | some text =>
      refine FailsOnly.map (failsOnly_linesTranscript fun line _ => ?_)
      refine failsOnly_lineTranscript (fun name _ _ => trivial) fun name _ after inner => ?_
      unfold includedTranscript
      split
      · exact FailsOnly.error trivial
      · split
        · exact FailsOnly.error trivial
        · exact ih _ _ _ _

/-! ### Lines that name what is there -/

/-- A text names no other tokens and files than the given ones. -/
def AsksOnly (names paths : List String) (text : String) : Prop :=
  ∀ line ∈ Text.split text, (TemplateLine.parse line.body).tokens ⊆ names ∧
    (TemplateLine.parse line.body).includes ⊆ paths

theorem AsksOnly.mono {more : List String} (h : AsksOnly names paths text)
    (hnames : names ⊆ more) : AsksOnly more paths text := fun line hline =>
  ⟨List.Subset.trans (h line hline).1 hnames, (h line hline).2⟩

/-- A file is processed if its tokens have sections and what it includes is processed. -/
theorem exists_fileTranscript {fuel : Nat} {opened : List Path}
    (hread : ctx.store.readText? path = some text) (hasks : AsksOnly names paths text)
    (hnames : ∀ name ∈ names, ctx.sections.get? name ≠ none)
    (hpaths : ∀ name ∈ paths, ∀ after indent, ∃ steps, includedTranscript ctx opened path
      (fileTranscript ctx fuel (path :: opened)) after (ctx.sharedDir.join ⟨name⟩) indent =
        .ok steps)
    (after : Text.Ending) (indent : String) :
    ∃ steps, fileTranscript ctx (fuel + 1) opened after path indent = .ok steps := by
  rw [fileTranscript, hread]
  refine FailsOnly.exists_ok (FailsOnly.map (failsOnly_linesTranscript fun line hline => ?_))
  obtain ⟨htokens, hincludes⟩ := hasks line hline
  refine failsOnly_lineTranscript (fun name hname hnone => hnames name (htokens hname) hnone) ?_
  exact fun name hname after inner =>
    FailsOnly.of_exists (hpaths name (hincludes hname) after inner)

/-- **A template whose lines name what is there is processed**: every token has a section, and
every file it includes is there, is another file, and includes none. -/
theorem exists_templateTranscript (hread : ctx.store.readText? path = some text)
    (hasks : AsksOnly names paths text)
    (hnames : ∀ name ∈ names, ctx.sections.get? name ≠ none)
    (hpaths : ∀ name ∈ paths, (ctx.sharedDir.join ⟨name⟩).sameAs path = false ∧
      ∃ inner, ctx.store.readText? (ctx.sharedDir.join ⟨name⟩) = some inner ∧
        AsksOnly names [] inner) : ∃ steps, templateTranscript ctx path = .ok steps := by
  refine exists_fileTranscript hread hasks hnames (fun name hname after indent => ?_) .none ""
  obtain ⟨hother, inner, hinner, hasks'⟩ := hpaths name hname
  have hclosed : (ctx.sharedDir.join ⟨name⟩).isAmong [path] = false := by
    rw [Path.isAmong, List.any_cons, hother, List.any_nil, Bool.or_false]
  rw [includedTranscript, hclosed, ctx.store.isFile_of_readText? hinner, if_neg Bool.false_ne_true]
  exact exists_fileTranscript hinner hasks' hnames (fun _ h => absurd h List.not_mem_nil) after
    indent

end Template

open Template (Context)

/-- **The errors of a template** are errors of templates. -/
theorem failsOnly_processTemplate (ctx : Context) (path : Path) :
    FailsOnly GenerationError.IsOfTemplate (processTemplate ctx path) :=
  Template.failsOnly_processTemplate_of_transcript (Template.failsOnly_fileTranscript _ _ _ _ _)

end MaterialShader
