import MaterialShader.Proofs.Outcome
import MaterialShader.Proofs.OutputLine
import MaterialShader.Proofs.ResolvedCode
import MaterialShader.Template.Process

/-!
# Transcripts of templates

What processing a template does, step by step: it opens files, writes lines of text, and puts
directives of its own around the lines of fields that some permutations lack.  The transcript
does not ask what has been written before.  Processing does, since it adds a line break where a
file does not end its last line.  That the two agree rests on one invariant: before every line of
a file, what is written next starts a line.

A line that is not ended waits for its terminator: that of the line that includes its file, or the
line break in front of a directive that closes a group.  The transcript is told which one comes, so
its lines are those of the output to the character.

## Main definitions

* `Template.Step` — a step of processing, with the line it writes or the file it opens.
* `Template.lineTranscript`, `Template.fileTranscript`, `templateTranscript` — the steps for a
  line, for a file, and for a template.
* `Template.Progress.Extends`, `Template.Progress.Completes` — some progress is other progress
  and the steps after it, and so it is after a line.

## Main results

* `Template.agree_processLine` — a line at the start of a line adds the lines of its transcript,
  and ends its own.
* `Template.agree_processFile` — a file at the start of a line adds the lines of its transcript.
* `agree_processTemplate` — a template and its transcript succeed together.
-/

namespace MaterialShader

open Shading (Directive Condition)

/-! ### Indented lines -/

/-- What stands in front of a line, and in front of what it keeps, is indentation. -/
def TemplateLine.IsIndented : TemplateLine → Prop
  | .guarded lead _ _ inner => Text.IsIndentation lead ∧ inner.IsIndented
  | .included lead _ => Text.IsIndentation lead
  | .text lead _ => Text.IsIndentation lead

namespace Template

theorem dropBlank_sublist (cs : List Char) : (dropBlank cs).Sublist cs := by
  cases cs with
  | nil => exact List.Sublist.refl []
  | cons c rest =>
    rw [dropBlank]
    split
    · exact List.sublist_cons_self c rest
    · exact List.Sublist.refl _

/-- The blanks and the rest of a line under a field are taken out of the line. -/
theorem sublist_of_predicate? {line lead name rest : List Char}
    (h : predicate? line = some (lead, name, rest)) :
    lead = Text.leadingBlanks line ∧ rest.Sublist line := by
  unfold predicate? at h
  split at h
  · next body hbody =>
    obtain ⟨p, hp, hline⟩ := Option.map_eq_some_iff.mp h
    obtain ⟨hlead, rfl⟩ := Prod.mk.inj hline
    refine ⟨hlead.symm, ?_⟩
    have hline' : body.Sublist line :=
      (hbody ▸ List.sublist_cons_self '$' body).trans (List.dropWhile_sublist _)
    refine List.Sublist.trans ?_ hline'
    unfold predicateBody? at hp
    split at hp
    · next rest' hrest =>
      split at hp
      · obtain ⟨-, rfl⟩ := Prod.mk.inj (Option.some.inj hp)
        have hcolon : rest'.Sublist body :=
          (hrest ▸ List.sublist_cons_self ':' rest').trans (List.dropWhile_sublist _)
        exact (dropBlank_sublist rest').trans hcolon
      · exact absurd hp nofun
    · exact absurd hp nofun
  · exact absurd h nofun

/-- A line without line feeds is indented with none. -/
theorem isIndented_parse {line : List Char} (h : '\n' ∉ line) :
    (TemplateLine.parse line).IsIndented := by
  fun_induction TemplateLine.parse line with
  | case1 line lead name rest hpredicate ih =>
    obtain ⟨rfl, hrest⟩ := sublist_of_predicate? hpredicate
    refine ⟨Text.isIndentation_leadingBlanks h, ih ?_⟩
    have hlead : (Text.leadingBlanks line).Sublist line := List.takeWhile_sublist _
    exact fun hfeed => (List.mem_append.mp hfeed).elim (fun hm => h (hlead.mem hm))
      fun hm => h (hrest.mem hm)
  | case2 => exact Text.isIndentation_leadingBlanks h
  | case3 => exact Text.isIndentation_leadingBlanks h

/-- What a text stands for depends on the sections alone. -/
theorem expand_eq_of_sections {ctx ctx' : Context} (h : ctx'.sections = ctx.sections) (file : Path)
    (indent : List Char) (pieces : List Piece) :
    expand ctx' file indent pieces = expand ctx file indent pieces := by
  induction pieces with
  | nil => rfl
  | cons piece pieces ih =>
    cases piece with
    | char c => rw [expand, expand, ih]
    | token name => rw [expand, expand, ih, h]

/-! ### Steps -/

/-- What processing does next. -/
inductive Step where
  /-- Opens a file. -/
  | file (path : Path) : Step
  /-- Writes a line of text. -/
  | text (line : String) : Step
  /-- Puts in a directive of its own. -/
  | directive (indent : String) (d : Directive) : Step
  deriving DecidableEq, Repr

/-- The line that a step writes. -/
def Step.line? : Step → Option String
  | .file _ => none
  | .text line => some line
  | .directive indent d => some (indent ++ d.text)

/-- The file that a step opens. -/
def Step.file? : Step → Option Path
  | .file path => some path
  | _ => none

/-- The lines that some steps write. -/
def linesOf (steps : List Step) : List String := steps.filterMap Step.line?

/-- The files that some steps open. -/
def filesOf (steps : List Step) : List Path := steps.filterMap Step.file?

/-- The steps that write a text, whose last line waits for a terminator if it has none. -/
def textSteps (after : Text.Ending) (s : String) : List Step :=
  (Text.bodies (Text.endLine after s)).map .text

@[simp] theorem linesOf_nil : linesOf [] = [] := rfl

@[simp] theorem linesOf_append (steps rest : List Step) :
    linesOf (steps ++ rest) = linesOf steps ++ linesOf rest := List.filterMap_append

@[simp] theorem filesOf_append (steps rest : List Step) :
    filesOf (steps ++ rest) = filesOf steps ++ filesOf rest := List.filterMap_append

@[simp] theorem linesOf_textSteps (after : Text.Ending) (s : String) :
    linesOf (textSteps after s) = Text.bodies (Text.endLine after s) := by
  rw [linesOf, textSteps, List.filterMap_map]
  exact List.filterMap_some

@[simp] theorem filesOf_textSteps (after : Text.Ending) (s : String) :
    filesOf (textSteps after s) = [] := by
  rw [filesOf, textSteps, List.filterMap_map]
  exact List.filterMap_none _

@[simp] theorem linesOf_file (path : Path) : linesOf [.file path] = [] := rfl

@[simp] theorem linesOf_directive (indent : String) (d : Directive) :
    linesOf [.directive indent d] = [indent ++ d.text] := rfl

@[simp] theorem filesOf_directive (indent : String) (d : Directive) :
    filesOf [.directive indent d] = [] := rfl

/-! ### Transcripts -/

/-- Steps between the directives of a group for some permutations. -/
def guardedSteps (indent : String) (indices : List Nat) (steps : List Step) : List Step :=
  [.directive indent (.ifTrue (permutationsCondition indices))] ++ steps ++
    [.directive indent .endIf]

/-- The steps for a line of a file.  If the line has no terminator, it waits for `after`. -/
def lineTranscript (ctx : Context) (file : Path)
    (included : Text.Ending → Path → String → Except GenerationError (List Step))
    (indent : String) (ending after : Text.Ending) :
    TemplateLine → Except GenerationError (List Step)
  | .guarded lead field rest inner =>
      match ctx.active.activity field with
      | .always => lineTranscript ctx file included indent ending after inner
      | .permutations indices => do
          -- what a group keeps is ended before the directive that closes it
          return guardedSteps (indent ++ lead) indices
            (← lineTranscript ctx file included indent ending .lf inner)
      | .never =>
          .ok (if ctx.debug then textSteps after (indent ++ lead ++ "// " ++ rest ++ ending.text)
            else [])
  | .included lead path =>
      included (ending.orElse after) (ctx.sharedDir.join ⟨path⟩) (indent ++ lead)
  | .text lead pieces => do
      let chars ← expand ctx file (indent ++ lead).toList pieces
      return textSteps after
        ((if chars.isEmpty then "" else indent ++ String.ofList chars) ++ ending.text)

/-- The steps for some lines of a file. -/
def linesTranscript (f : Text.Line → Except GenerationError (List Step)) :
    List Text.Line → Except GenerationError (List Step)
  | [] => .ok []
  | line :: rest => do return (← f line) ++ (← linesTranscript f rest)

/-- The steps for an included file, unless it is one of those whose lines are being processed,
the last of which includes it. -/
def includedTranscript (ctx : Context) (opened : List Path) (file : Path)
    (transcript : Text.Ending → Path → String → Except GenerationError (List Step))
    (after : Text.Ending) (target : Path) (indent : String) :
    Except GenerationError (List Step) :=
  if target.isAmong (file :: opened) then .error (.recursiveInclude target file)
  else if !ctx.store.isFile target then .error (.includeNotFound target file)
  else transcript after target indent

/-- The steps for a file, where `opened` are the files whose lines are being processed.  Its last
line waits for `after`. -/
def fileTranscript (ctx : Context) : Nat → List Path → Text.Ending → Path → String →
    Except GenerationError (List Step)
  | 0, _, _, path, _ => .error (.recursiveInclude path path)
  | fuel + 1, opened, after, path, indent =>
      match ctx.store.readText? path with
      | none => .error (.unreadableTemplate path)
      | some text => do
          let included :=
            includedTranscript ctx opened path (fileTranscript ctx fuel (path :: opened))
          let steps ← linesTranscript
            (fun line => lineTranscript ctx path included indent line.ending after
              (TemplateLine.parse line.body))
            (Text.split text)
          return [.file path] ++ steps

/-! ### Progress -/

/-- The files with one more, unless it is among them under any spelling. -/
def withFile (files : List Path) (path : Path) : List Path :=
  if path.isAmong files then files else files ++ [path]

theorem mem_of_mem_foldl_withFile {opened files : List Path} {path : Path}
    (h : path ∈ opened.foldl withFile files) : path ∈ files ∨ path ∈ opened := by
  induction opened generalizing files with
  | nil => exact Or.inl h
  | cons next opened ih =>
    obtain h | h := ih h
    · unfold withFile at h
      split at h
      · exact Or.inl h
      · obtain h | h := List.mem_append.mp h
        · exact Or.inl h
        · exact Or.inr (List.mem_singleton.mp h ▸ List.mem_cons_self)
    · exact Or.inr (List.mem_cons_of_mem _ h)

theorem isAmong_foldl_withFile {opened files : List Path} {path : Path}
    (h : path.isAmong files = true ∨ path ∈ opened) :
    path.isAmong (opened.foldl withFile files) = true := by
  induction opened generalizing files with
  | nil => exact h.resolve_right List.not_mem_nil
  | cons next opened ih =>
    refine ih ?_
    rw [List.mem_cons, ← or_assoc] at h
    refine h.imp_left fun h => ?_
    unfold withFile
    obtain h | rfl := h
    · split
      · exact h
      · rw [Path.isAmong, List.any_append, Bool.or_eq_true]
        exact Or.inl h
    · split
      · assumption
      · simp [Path.isAmong]

namespace Progress

variable {p q r : Progress} {steps rest : List Step} {after ending : Text.Ending}

theorem dependencies_depend (p : Progress) (path : Path) :
    (p.depend path).dependencies = withFile p.dependencies path := by
  unfold depend withFile
  split <;> rfl

theorem text_depend (p : Progress) (path : Path) : (p.depend path).text = p.text := by
  unfold depend
  split <;> rfl

/-- Some progress is other progress and the steps after it, once the last line is ended. -/
structure Extends (after : Text.Ending) (p q : Progress) (steps : List Step) : Prop where
  bodies : Text.bodies (Text.endLine after q.text) = Text.bodies p.text ++ linesOf steps
  dependencies : q.dependencies = (filesOf steps).foldl withFile p.dependencies

namespace Extends

theorem refl (hp : Text.IsLineStart p.text) : p.Extends after p [] where
  bodies := by rw [Text.endLine_of_isLineStart hp, linesOf_nil, List.append_nil]
  dependencies := rfl

/-- At the start of a line, no line waits for its terminator. -/
theorem bodies_of_isLineStart (h : p.Extends after q steps) (hq : Text.IsLineStart q.text) :
    Text.bodies q.text = Text.bodies p.text ++ linesOf steps := by
  rw [← h.bodies, Text.endLine_of_isLineStart hq]

theorem trans {before : Text.Ending} (h : p.Extends before q steps)
    (hq : Text.IsLineStart q.text) (h' : q.Extends after r rest) :
    p.Extends after r (steps ++ rest) where
  bodies := by
    rw [h'.bodies, h.bodies_of_isLineStart hq, linesOf_append, List.append_assoc]
  dependencies := by rw [h'.dependencies, h.dependencies, filesOf_append, List.foldl_append]

theorem depend (hp : Text.IsLineStart p.text) (path : Path) :
    p.Extends after (p.depend path) [.file path] where
  bodies := by
    rw [text_depend, Text.endLine_of_isLineStart hp, linesOf_file, List.append_nil]
  dependencies := dependencies_depend p path

/-- A text that is written at the start of a line. -/
theorem write (hp : Text.IsLineStart p.text) (s : String) :
    p.Extends after (p.write s) (textSteps after s) where
  bodies := by
    rw [linesOf_textSteps, Progress.write, Text.endLine_append hp, Text.bodies_append hp]
  dependencies := by rw [filesOf_textSteps]; rfl

/-- A directive that is put in at the start of a line stands on a line of its own. -/
theorem directive (hp : Text.IsLineStart p.text) {indent : String}
    (hindent : Text.IsIndentation indent) {d : Directive} (hd : Text.IsOneLine d.text)
    (ending after : Text.Ending) :
    p.Extends after (p.write (indent ++ d.text ++ ending.text)) [.directive indent d] where
  bodies := by
    have hne : d.text.toList ≠ [] := by cases d <;> simp [Directive.text]
    have hline : Text.bodies (Text.endLine after (indent ++ d.text ++ ending.text)) =
        [indent ++ d.text] := by
      refine Text.bodies_endLine_line ?_ ?_ ?_ ending after
      · rw [String.toList_append, List.mem_append, not_or]
        exact ⟨fun h => (hindent _ h).2 rfl, hd.1⟩
      · exact fun h => hne (String.toList_eq_nil_iff.mpr (String.append_eq_empty_iff.mp h).2)
      · rw [String.toList_append, List.getLast?_append_of_ne_nil _ hne]
        exact fun h => hd.2 (List.mem_of_getLast? h)
    rw [Progress.write, Text.endLine_append hp, Text.bodies_append hp, hline, linesOf_directive]
  dependencies := rfl

end Extends

/-- Progress after a line: its steps are added, and if the line has a terminator, then what is
written next starts a line. -/
structure Completes (ending after : Text.Ending) (p q : Progress) (steps : List Step) : Prop
    extends p.Extends after q steps where
  isLineStart : ending ≠ .none → Text.IsLineStart q.text

theorem isLineStart_write (p : Progress) (s : String) {ending : Text.Ending}
    (h : ending ≠ .none) : Text.IsLineStart (p.write (s ++ ending.text)).text := by
  rw [write, ← String.append_assoc]
  exact Text.isLineStart_of_ending _ h

theorem text_finishLine (hne : p.text ≠ "") : p.finishLine.text = Text.endLine .lf p.text := by
  have hempty : p.text.isEmpty = false := by simpa using hne
  unfold finishLine endsLine Text.endLine
  rw [hempty, Bool.false_or]
  split <;> rfl

theorem dependencies_finishLine (p : Progress) : p.finishLine.dependencies = p.dependencies := by
  unfold finishLine
  split <;> rfl

/-- **A line that has been begun** is finished with the line feed that it waits for. -/
theorem Extends.finishLine (h : p.Extends .lf q steps) (hne : q.text ≠ "")
    (after : Text.Ending) :
    p.Extends after q.finishLine steps ∧ Text.IsLineStart q.finishLine.text := by
  have hstart : Text.IsLineStart q.finishLine.text := by
    rw [text_finishLine hne]
    exact Text.isLineStart_endLine (e := .lf) nofun q.text
  refine ⟨⟨?_, ?_⟩, hstart⟩
  · rw [Text.endLine_of_isLineStart hstart, text_finishLine hne, h.bodies]
  · rw [dependencies_finishLine, h.dependencies]

namespace Completes

theorem refl (hp : Text.IsLineStart p.text) : p.Completes ending after p [] where
  toExtends := Extends.refl hp
  isLineStart _ := hp

theorem write (hp : Text.IsLineStart p.text) (s : String) :
    p.Completes ending after (p.write (s ++ ending.text))
      (textSteps after (s ++ ending.text)) where
  toExtends := Extends.write hp _
  isLineStart := isLineStart_write p s

/-- A line that includes a file ends where the file does not end its last line. -/
theorem included (h : p.Extends (ending.orElse after) q steps) :
    p.Completes ending after (if q.text.isEmpty || q.endsLine then q else q.write ending.text)
      steps := by
  have htext : (if q.text.isEmpty || q.endsLine then q else q.write ending.text).text =
      Text.endLine ending q.text := by
    unfold Text.endLine endsLine
    split <;> rfl
  constructor
  · constructor
    · rw [htext, Text.endLine_endLine, h.bodies]
    · rw [← h.dependencies]
      split <;> rfl
  · intro he
    rw [htext]
    exact Text.isLineStart_endLine he q.text

/-- **A group that is put in** has its directives on lines of their own, also around a line that
is not ended. -/
theorem guarded (hp : Text.IsLineStart p.text) {indent : String}
    (hindent : Text.IsIndentation indent) {indices : List Nat} (hindices : indices ≠ [])
    (h : (p.write (indent ++ (Directive.ifTrue (permutationsCondition indices)).text ++
      ending.orLineFeed.text)).Completes ending .lf q steps) :
    p.Completes ending after (q.finishLine.write (indent ++ Directive.endIf.text ++ ending.text))
      (guardedSteps indent indices steps) := by
  have hopened := isLineStart_write p (indent ++
    (Directive.ifTrue (permutationsCondition indices)).text) (Text.orLineFeed_ne_none ending)
  have hopening := Extends.directive hp hindent (d := .ifTrue (permutationsCondition indices))
    (Preprocessor.isOneLine_directive fun c hc =>
      Option.some.inj hc ▸ isReadable_permutationsCondition hindices) ending.orLineFeed .none
  have hkept := hopening.trans hopened h.toExtends
  -- the first directive has been written, so there is text to finish a line of
  have hne : q.text ≠ "" := by
    intro hempty
    have hbodies := hkept.bodies
    rw [hempty, linesOf_append, linesOf_directive] at hbodies
    exact List.append_ne_nil_of_right_ne_nil _ (List.cons_ne_nil _ _) hbodies.symm
  obtain ⟨hfinish, hstart⟩ := hkept.finishLine hne .none
  have hclosing := Extends.directive hstart hindent (d := .endIf) (by decide) ending after
  exact { toExtends := hfinish.trans hstart hclosing, isLineStart := isLineStart_write _ _ }

end Completes
end Progress

/-! ### Lines -/

section Line

variable {ctx : Context} {file : Path} {indent : String} {ending after : Text.Ending}
  {processIncluded : Path → String → Progress → Except GenerationError Progress}
  {included : Text.Ending → Path → String → Except GenerationError (List Step)}

/-- **A line of a file**, processed at the start of a line, adds the lines of its transcript. -/
theorem agree_processLine
    (hincluded : ∀ after target indent, Text.IsIndentation indent → ∀ p : Progress,
      Text.IsLineStart p.text → Outcome.Agree (p.Extends after)
        (processIncluded target indent p) (included after target indent))
    (hindent : Text.IsIndentation indent) {line : TemplateLine} (hline : line.IsIndented)
    {p : Progress} (hp : Text.IsLineStart p.text) :
    Outcome.Agree (p.Completes ending after)
      (processLine ctx file processIncluded indent ending line p)
      (lineTranscript ctx file included indent ending after line) := by
  induction line generalizing p after with
  | guarded lead field rest inner ih =>
    obtain ⟨hlead, hinner⟩ := hline
    unfold processLine lineTranscript
    have hspread : (ctx.active.activity field).IsSpread ctx.active.permutationCount :=
      ActiveFields.isSpread_activity
    cases hactivity : ctx.active.activity field with
    | always => exact ih hinner hp
    | permutations indices =>
      rw [hactivity] at hspread
      refine Outcome.Agree.bind (ih hinner ?_) fun q steps hq => ?_
      · exact Progress.isLineStart_write p _ (Text.orLineFeed_ne_none ending)
      · exact Progress.Completes.guarded hp (hindent.append hlead) hspread.1 hq
    | never =>
      cases ctx.debug with
      | false => exact Progress.Completes.refl hp
      | true => exact Progress.Completes.write hp _
  | included lead path =>
    have hfile := hincluded (ending.orElse after) (ctx.sharedDir.join ⟨path⟩) (indent ++ lead)
      (hindent.append hline) p hp
    exact hfile.map_left fun q steps hq => Progress.Completes.included hq
  | text lead pieces =>
    unfold processLine lineTranscript
    cases expand ctx file (indent ++ lead).toList pieces with
    | error e => exact rfl
    | ok chars => exact Progress.Completes.write hp _

/-- The lines of a file, processed from the start of a line.  Only the last of them may lack a
terminator, so every line after another starts a line. -/
theorem agree_processLines {process : Text.Line → Progress → Except GenerationError Progress}
    {transcript : Text.Line → Except GenerationError (List Step)} {lines : List Text.Line}
    (h : ∀ line ∈ lines, ∀ p : Progress, Text.IsLineStart p.text →
      Outcome.Agree (p.Completes line.ending after) (process line p) (transcript line))
    (hended : ∀ line ∈ lines.dropLast, line.ending ≠ .none) {p : Progress}
    (hp : Text.IsLineStart p.text) :
    Outcome.Agree (p.Extends after) (lines.foldlM (fun p line => process line p) p)
      (linesTranscript transcript lines) := by
  induction lines generalizing p with
  | nil => exact Progress.Extends.refl hp
  | cons line lines ih =>
    obtain ⟨hline, hlines⟩ := List.forall_mem_cons.mp h
    rw [List.foldlM_cons, linesTranscript]
    refine Outcome.Agree.bind (hline p hp) fun q steps hq => ?_
    cases lines with
    | nil =>
      have hall : p.Extends after q (steps ++ []) := (List.append_nil steps).symm ▸ hq.toExtends
      exact hall
    | cons next rest =>
      obtain ⟨hfirst, hrest⟩ := List.forall_mem_cons.mp hended
      have hstart := hq.isLineStart hfirst
      exact (ih hlines hrest hstart).map_right fun r steps' hr => hq.toExtends.trans hstart hr

end Line

/-! ### Files -/

/-- **A file**, processed at the start of a line, adds the lines of its transcript. -/
theorem agree_processFile (ctx : Context) (fuel : Nat) (opened : List Path)
    (after : Text.Ending) (path : Path) {indent : String} (hindent : Text.IsIndentation indent)
    {p : Progress} (hp : Text.IsLineStart p.text) :
    Outcome.Agree (p.Extends after) (processFile ctx fuel opened path indent p)
      (fileTranscript ctx fuel opened after path indent) := by
  induction fuel generalizing opened after path indent p with
  | zero => exact rfl
  | succ fuel ih =>
    unfold processFile fileTranscript
    cases ctx.store.readText? path with
    | none => exact rfl
    | some text =>
      have hopen : p.Extends after (p.depend path) [.file path] := Progress.Extends.depend hp path
      have hstart : Text.IsLineStart (p.depend path).text := by rwa [Progress.text_depend]
      refine (agree_processLines (fun line hline q hq => ?_)
        (fun line hline => Text.ending_ne_none_of_mem_dropLast hline) hstart).map_right
          fun q steps hq => hopen.trans hstart hq
      refine agree_processLine (fun after target inner hinner q hq => ?_) hindent
        (isIndented_parse (Text.newline_notMem_body hline)) hq
      unfold includedTranscript
      split
      · exact rfl
      · split
        · exact rfl
        · exact ih (path :: opened) after target hinner hq

end Template

/-! ### Templates -/

/-- The steps for a template. -/
def templateTranscript (ctx : Template.Context) (path : Path) :
    Except GenerationError (List Template.Step) :=
  Template.fileTranscript ctx (ctx.store.lineCount + 2) [] .none path ""

open Template (Context Progress linesOf filesOf withFile)

variable {ctx : Context} {path : Path}

/-- **A template** that is there is processed as its transcript says, error or not. -/
theorem agree_processTemplate (h : ctx.store.isFile path = true) :
    Outcome.Agree (fun out steps => ∃ q, out = some q ∧ Text.bodies q.text = linesOf steps ∧
        q.dependencies = (filesOf steps).foldl withFile [])
      (processTemplate ctx path) (templateTranscript ctx path) := by
  have hfile := Template.agree_processFile ctx (ctx.store.lineCount + 2) [] .none path
    Text.isIndentation_empty (p := ⟨"", []⟩) (Or.inl rfl)
  rw [processTemplate, h]
  refine hfile.map_left fun q steps hq => ⟨q, rfl, ?_, hq.dependencies⟩
  have hbodies := hq.bodies
  rwa [Text.endLine_none] at hbodies

end MaterialShader
