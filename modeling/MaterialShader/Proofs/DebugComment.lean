import MaterialShader.FilePlace
import MaterialShader.Proofs.SplitLine
import MaterialShader.Proofs.TemplateTranscript

/-!
# Comments in the output of a template

With debug output, a line whose field is nowhere active leaves a comment; without, it leaves
nothing.  What is written later depends on what has been written: a line break is added where a
file does not end its last line.  So a comment that is left out might take a line break with it,
or leave one behind.

It does not.  Processing is told here as a list of items, which does not ask for debug output and
in which comments are marked.  Each item but the last of a file ends a line, and a comment is
ended with the terminator that is added behind it.  Where it is left out, the output is at the
start of a line, as it is before the comment.

## Main definitions

* `Template.Item` — a file that is opened, or what is written at once.
* `Template.shownText` — what some items write, with comments or without.
* `Template.lineItems`, `Template.fileItems`, `templateItems` — the items for a line, for a file,
  and for a template.
* `Template.Progress.Writes` — some progress is other progress and the items after it.

## Main results

* `Template.shownText_endLast` — the last line is ended alike with comments and without.
* `Template.agree_lineItems`, `Template.agree_fileItems` — a line and a file write their items.
* `processTemplate_debug` — the outputs of a template with comments and without.
-/

namespace MaterialShader

open Shading (Directive)

namespace Template

/-! ### Items -/

/-- What processing does at once. -/
inductive Item where
  /-- Opens a file. -/
  | file (path : Path) : Item
  /-- Writes a text. -/
  | kept (text : String) : Item
  /-- Writes the comment for a line under a field, with debug output only. -/
  | comment (indent : String) (field : Field) (rest : String) (ending : Text.Ending) : Item
  deriving DecidableEq, Repr

namespace Item

variable {i : Item} {debug : Bool} {active : ActiveFields}

/-- The text that an item writes. -/
def shown (debug : Bool) : Item → String
  | .file _ => ""
  | .kept text => text
  | .comment indent _ rest ending =>
      if debug then indent ++ "// " ++ rest ++ ending.text else ""

/-- The file that an item opens. -/
def file? : Item → Option Path
  | .file path => some path
  | _ => none

/-- The item is a comment. -/
def isComment : Item → Bool
  | .comment .. => true
  | _ => false

/-- The lines that an item writes with debug output. -/
def lines (i : Item) : List Text.Line := Text.split (i.shown true)

/-- What is written behind the item starts a line. -/
def Ends : Item → Prop
  | .file _ => True
  | .kept text => Text.IsLineStart text
  | .comment _ _ _ ending => ending ≠ .none

/-- An item with its last line ended. -/
def ended (e : Text.Ending) : Item → Item
  | .file path => .file path
  | .kept text => .kept (Text.endLine e text)
  | .comment indent field rest ending =>
      .comment indent field rest (if ending = .none then e else ending)

/-- A comment is the comment of a field that is active nowhere, and but for its terminator it
has no line feed. -/
def IsSound (active : ActiveFields) : Item → Prop
  | .comment indent field rest _ =>
      active.activity field = .never ∧ '\n' ∉ indent.toList ∧ '\n' ∉ rest.toList
  | _ => True

theorem isLineStart_shown (h : i.Ends) (debug : Bool) : Text.IsLineStart (i.shown debug) := by
  cases i with
  | file path => exact Or.inl rfl
  | kept text => exact h
  | comment indent field rest ending =>
    cases debug with
    | false => exact Or.inl rfl
    | true => exact Text.isLineStart_of_ending _ h

/-- A comment is not empty, and its only line feed is that of its terminator. -/
theorem comment_spec {indent rest : String} (hindent : '\n' ∉ indent.toList)
    (hrest : '\n' ∉ rest.toList) :
    '\n' ∉ (indent ++ "// " ++ rest).toList ∧ indent ++ "// " ++ rest ≠ "" := by
  constructor
  · simp [hindent, hrest]
  · intro hempty
    have hslashes := (String.append_eq_empty_iff.mp (String.append_eq_empty_iff.mp hempty).1).2
    exact absurd hslashes (by decide)

theorem shown_ended (h : i.IsSound active) (e : Text.Ending) (debug : Bool) :
    (i.ended e).shown debug = Text.endLine e (i.shown debug) := by
  cases i with
  | file path => exact (Text.endLine_of_isLineStart (Or.inl rfl) e).symm
  | kept text => rfl
  | comment indent field rest ending =>
    cases debug with
    | false => exact (Text.endLine_of_isLineStart (Or.inl rfl) e).symm
    | true =>
      by_cases hending : ending = .none
      · obtain ⟨hfeed, hne⟩ := comment_spec h.2.1 h.2.2
        have hopen : ¬Text.IsLineStart (indent ++ "// " ++ rest) := by
          rintro (hempty | hlast)
          · exact hne hempty
          · exact hfeed (List.mem_of_getLast? hlast)
        have hnone : indent ++ "// " ++ rest ++ Text.Ending.none.text = indent ++ "// " ++ rest :=
          String.append_empty
        rw [hending, ended, if_pos rfl, shown, shown, if_pos rfl, if_pos rfl, hnone,
          Text.endLine_of_not hopen]
      · rw [ended, if_neg hending,
          Text.endLine_of_isLineStart (isLineStart_shown (i := .comment _ _ _ _) hending true)]

theorem ends_ended {e : Text.Ending} (he : e ≠ .none) (i : Item) : (i.ended e).Ends := by
  cases i with
  | file path => exact trivial
  | kept text => exact Text.isLineStart_endLine he text
  | comment indent field rest ending =>
    rw [ended, Ends]
    split
    · exact he
    · assumption

theorem isSound_ended (h : i.IsSound active) (e : Text.Ending) : (i.ended e).IsSound active := by
  cases i with
  | file path => exact trivial
  | kept text => exact trivial
  | comment indent field rest ending => exact h

end Item

/-! ### Lists of items -/

section Items

variable {debug : Bool} {active : ActiveFields} {items rest : List Item} {i : Item}
  {e : Text.Ending}

/-- The text that some items write. -/
def shownText (debug : Bool) : List Item → String
  | [] => ""
  | i :: items => i.shown debug ++ shownText debug items

/-- The files that some items open. -/
def openedFiles (items : List Item) : List Path := items.filterMap Item.file?

/-- Some items with the last line ended. -/
def endLast (e : Text.Ending) (items : List Item) : List Item :=
  items.dropLast ++ (items.getLast?.map (Item.ended e)).toList

@[simp] theorem endLast_nil : endLast e [] = [] := rfl

@[simp] theorem endLast_append_singleton :
    endLast e (items ++ [i]) = items ++ [i.ended e] := by simp [endLast]

theorem shownText_append (debug : Bool) (items rest : List Item) :
    shownText debug (items ++ rest) = shownText debug items ++ shownText debug rest := by
  induction items with
  | nil => exact String.empty_append.symm
  | cons i items ih => rw [List.cons_append, shownText, shownText, ih, String.append_assoc]

theorem shownText_singleton (debug : Bool) (i : Item) :
    shownText debug [i] = i.shown debug := String.append_empty

theorem isLineStart_shownText (h : ∀ i ∈ items, i.Ends) (debug : Bool) :
    Text.IsLineStart (shownText debug items) := by
  induction items with
  | nil => exact Or.inl rfl
  | cons i items ih =>
    obtain ⟨hi, hitems⟩ := List.forall_mem_cons.mp h
    exact Text.isLineStart_append (Item.isLineStart_shown hi debug) (ih hitems)

theorem openedFiles_append (items rest : List Item) :
    openedFiles (items ++ rest) = openedFiles items ++ openedFiles rest := List.filterMap_append

theorem openedFiles_endLast (e : Text.Ending) (items : List Item) :
    openedFiles (endLast e items) = openedFiles items := by
  rcases List.eq_nil_or_concat items with rfl | ⟨init, i, rfl⟩
  · rfl
  · have hlast : openedFiles [i.ended e] = openedFiles [i] := by cases i <;> rfl
    rw [List.concat_eq_append, endLast_append_singleton, openedFiles_append, openedFiles_append,
      hlast]

/-- What processing can write from the start of a line: only the last item may leave a line
open. -/
structure IsWritten (active : ActiveFields) (items : List Item) : Prop where
  sound : ∀ i ∈ items, i.IsSound active
  ends : ∀ i ∈ items.dropLast, i.Ends

theorem isWritten_nil : IsWritten active [] where
  sound := List.forall_mem_nil _
  ends := List.forall_mem_nil _

theorem isWritten_singleton (h : i.IsSound active) : IsWritten active [i] where
  sound := List.forall_mem_singleton.mpr h
  ends := List.forall_mem_nil _

theorem IsWritten.append (h : IsWritten active items) (hends : ∀ i ∈ items, i.Ends)
    (h' : IsWritten active rest) : IsWritten active (items ++ rest) where
  sound := List.forall_mem_append.mpr ⟨h.sound, h'.sound⟩
  ends := by
    by_cases hrest : rest = []
    · rw [hrest, List.append_nil]
      exact h.ends
    · rw [List.dropLast_append_of_ne_nil hrest]
      exact List.forall_mem_append.mpr ⟨hends, h'.ends⟩

/-- **The last line is ended alike** with comments and without. -/
theorem shownText_endLast (h : IsWritten active items) (e : Text.Ending) (debug : Bool) :
    shownText debug (endLast e items) = Text.endLine e (shownText debug items) := by
  rcases List.eq_nil_or_concat items with rfl | ⟨init, i, rfl⟩
  · exact (Text.endLine_of_isLineStart (Or.inl rfl) e).symm
  · rw [List.concat_eq_append] at h ⊢
    have hinit : ∀ i ∈ init, i.Ends := by
      have hends := h.ends
      rwa [List.dropLast_concat] at hends
    have hi : i.IsSound active := h.sound i (List.mem_append_right _ List.mem_cons_self)
    rw [endLast_append_singleton, shownText_append, shownText_append, shownText_singleton,
      shownText_singleton, Text.endLine_append (isLineStart_shownText hinit debug),
      Item.shown_ended hi]

theorem IsWritten.endLast (h : IsWritten active items) (e : Text.Ending) :
    IsWritten active (endLast e items) := by
  rcases List.eq_nil_or_concat items with rfl | ⟨init, i, rfl⟩
  · exact h
  · rw [List.concat_eq_append] at h ⊢
    obtain ⟨hsound, hends⟩ := h
    obtain ⟨hinit, hi⟩ := List.forall_mem_append.mp hsound
    rw [endLast_append_singleton]
    constructor
    · refine List.forall_mem_append.mpr ⟨hinit, List.forall_mem_singleton.mpr ?_⟩
      exact Item.isSound_ended (List.forall_mem_singleton.mp hi) e
    · rw [List.dropLast_concat] at hends ⊢
      exact hends

theorem IsWritten.ends_endLast (h : IsWritten active items) (he : e ≠ .none) :
    ∀ i ∈ Template.endLast e items, i.Ends := by
  rcases List.eq_nil_or_concat items with rfl | ⟨init, i, rfl⟩
  · exact List.forall_mem_nil _
  · rw [List.concat_eq_append] at h ⊢
    have hends := h.ends
    rw [List.dropLast_concat] at hends
    rw [endLast_append_singleton]
    exact List.forall_mem_append.mpr
      ⟨hends, List.forall_mem_singleton.mpr (Item.ends_ended he i)⟩

/-- The lines of what some items write are the lines of the items. -/
theorem split_shownText (h : ∀ i ∈ items.dropLast, i.Ends) (debug : Bool) :
    Text.split (shownText debug items) = items.flatMap fun i => Text.split (i.shown debug) := by
  induction items with
  | nil => rfl
  | cons i items ih =>
    obtain ⟨hi, hitems⟩ := Text.forall_dropLast_cons h
    by_cases hne : items = []
    · rw [hne, shownText_singleton, List.flatMap_singleton]
    · rw [shownText, Text.split_append (Item.isLineStart_shown (hi hne) debug), ih hitems,
        List.flatMap_cons]

/-- Without debug output, the lines of the comments are missing. -/
theorem flatMap_split_shown_false (items : List Item) :
    (items.flatMap fun i => Text.split (i.shown false)) =
      (items.filter fun i => !i.isComment).flatMap Item.lines := by
  induction items with
  | nil => rfl
  | cons i items ih =>
    rw [List.flatMap_cons, ih]
    cases i <;> rfl

end Items

/-! ### The items of a template -/

/-- The items for a line of a file. -/
def lineItems (ctx : Context) (file : Path)
    (included : Path → String → Except GenerationError (List Item)) (indent : String)
    (ending : Text.Ending) : TemplateLine → Except GenerationError (List Item)
  | .guarded lead field rest inner =>
      match ctx.active.activity field with
      | .always => lineItems ctx file included indent ending inner
      | .permutations indices => do
          let condition := Directive.ifTrue (permutationsCondition indices)
          let items ← lineItems ctx file included indent ending inner
          return [.kept (indent ++ lead ++ condition.text ++ ending.orLineFeed.text)] ++
            endLast .lf items ++ [.kept (indent ++ lead ++ Directive.endIf.text ++ ending.text)]
      | .never => .ok [.comment (indent ++ lead) field rest ending]
  | .included lead path => do
      return endLast ending (← included (ctx.sharedDir.join ⟨path⟩) (indent ++ lead))
  | .text lead pieces => do
      let chars ← expand ctx file (indent ++ lead).toList pieces
      return [.kept ((if chars.isEmpty then "" else indent ++ String.ofList chars) ++ ending.text)]

/-- The items for some lines of a file. -/
def linesItems (f : Text.Line → Except GenerationError (List Item)) :
    List Text.Line → Except GenerationError (List Item)
  | [] => .ok []
  | line :: rest => do return (← f line) ++ (← linesItems f rest)

/-- The items for a file, where `opened` are the files whose lines are being processed. -/
def fileItems (ctx : Context) : Nat → List Path → Path → String →
    Except GenerationError (List Item)
  | 0, _, path, _ => .error (.recursiveInclude path path)
  | fuel + 1, opened, path, indent =>
      match ctx.store.readText? path with
      | none => .error (.unreadableTemplate path)
      | some text => do
          let included (target : Path) (indent : String) : Except GenerationError (List Item) :=
            if target.isAmong (path :: opened) then .error (.recursiveInclude target path)
            else if !ctx.store.isFile target then .error (.includeNotFound target path)
            else fileItems ctx fuel (path :: opened) target indent
          let items ← linesItems
            (fun line => lineItems ctx path included indent line.ending
              (TemplateLine.parse line.body))
            (Text.split text)
          return [.file path] ++ items

/-! ### Progress -/

namespace Progress

variable {debug : Bool} {active : ActiveFields} {p q r : Progress} {items rest : List Item}
  {ending : Text.Ending}

/-- Some progress is other progress and the items after it. -/
structure Writes (debug : Bool) (active : ActiveFields) (p q : Progress) (items : List Item) :
    Prop extends IsWritten active items where
  text : q.text = p.text ++ shownText debug items
  dependencies : q.dependencies = (openedFiles items).foldl withFile p.dependencies

namespace Writes

theorem refl (p : Progress) : p.Writes debug active p [] where
  toIsWritten := isWritten_nil
  text := String.append_empty.symm
  dependencies := rfl

theorem trans (h : p.Writes debug active q items) (hends : ∀ i ∈ items, i.Ends)
    (h' : q.Writes debug active r rest) : p.Writes debug active r (items ++ rest) where
  toIsWritten := h.toIsWritten.append hends h'.toIsWritten
  text := by rw [h'.text, h.text, shownText_append, String.append_assoc]
  dependencies := by
    rw [h'.dependencies, h.dependencies, openedFiles_append, List.foldl_append]

theorem isLineStart (h : p.Writes debug active q items) (hp : Text.IsLineStart p.text)
    (hends : ∀ i ∈ items, i.Ends) : Text.IsLineStart q.text := by
  rw [h.text]
  exact Text.isLineStart_append hp (isLineStart_shownText hends debug)

theorem depend (p : Progress) (path : Path) :
    p.Writes debug active (p.depend path) [.file path] where
  toIsWritten := isWritten_singleton trivial
  text := by
    rw [text_depend, shownText_singleton]
    exact String.append_empty.symm
  dependencies := dependencies_depend p path

theorem kept (p : Progress) (s : String) : p.Writes debug active (p.write s) [.kept s] where
  toIsWritten := isWritten_singleton trivial
  text := by rw [shownText_singleton]; rfl
  dependencies := rfl

/-- The comment of a field that is active nowhere. -/
theorem comment (p : Progress) {indent rest : String} {field : Field}
    (hfield : active.activity field = .never) (hindent : '\n' ∉ indent.toList)
    (hrest : '\n' ∉ rest.toList) (ending : Text.Ending) :
    p.Writes debug active
      (if debug then p.write (indent ++ "// " ++ rest ++ ending.text) else p)
      [.comment indent field rest ending] where
  toIsWritten := isWritten_singleton ⟨hfield, hindent, hrest⟩
  text := by
    rw [shownText_singleton]
    cases debug with
    | false => exact String.append_empty.symm
    | true => rfl
  dependencies := by cases debug <;> rfl

/-- A line that is ended where what was included does not end its own. -/
theorem endLast (h : p.Writes debug active q items) (hp : Text.IsLineStart p.text)
    (e : Text.Ending) :
    p.Writes debug active (if q.text.isEmpty || q.endsLine then q else q.write e.text)
      (endLast e items) where
  toIsWritten := h.toIsWritten.endLast e
  text := by
    rw [shownText_endLast h.toIsWritten, ← Text.endLine_append hp, ← h.text]
    unfold Text.endLine endsLine
    split <;> rfl
  dependencies := by
    rw [openedFiles_endLast, ← h.dependencies]
    split <;> rfl

/-- A line that has been begun is finished. -/
theorem finishLine (h : p.Writes debug active q items) (hp : Text.IsLineStart p.text)
    (hne : q.text ≠ "") : p.Writes debug active q.finishLine (Template.endLast .lf items) := by
  have hfinish : q.finishLine =
      if q.text.isEmpty || q.endsLine then q else q.write Text.Ending.lf.text := by
    have hempty : q.text.isEmpty = false := by simpa using hne
    rw [hempty, Bool.false_or]
    rfl
  rw [hfinish]
  exact h.endLast hp .lf

end Writes

/-- Progress after a line: its items are written, and if the line has a terminator, then what is
written next starts a line. -/
structure WritesLine (debug : Bool) (active : ActiveFields) (ending : Text.Ending)
    (p q : Progress) (items : List Item) : Prop extends p.Writes debug active q items where
  allEnd : ending ≠ .none → ∀ i ∈ items, i.Ends

namespace WritesLine

theorem kept (p : Progress) (s : String) : p.WritesLine debug active ending
    (p.write (s ++ ending.text)) [.kept (s ++ ending.text)] where
  toWrites := Writes.kept p _
  allEnd he := List.forall_mem_singleton.mpr (Text.isLineStart_of_ending s he)

theorem comment (p : Progress) {indent rest : String} {field : Field}
    (hfield : active.activity field = .never) (hindent : '\n' ∉ indent.toList)
    (hrest : '\n' ∉ rest.toList) :
    p.WritesLine debug active ending
      (if debug then p.write (indent ++ "// " ++ rest ++ ending.text) else p)
      [.comment indent field rest ending] where
  toWrites := Writes.comment p hfield hindent hrest ending
  allEnd he := List.forall_mem_singleton.mpr he

/-- A line that includes a file ends where the file does not end its last line. -/
theorem included (h : p.Writes debug active q items) (hp : Text.IsLineStart p.text) :
    p.WritesLine debug active ending
      (if q.text.isEmpty || q.endsLine then q else q.write ending.text)
      (endLast ending items) where
  toWrites := h.endLast hp ending
  allEnd he := h.toIsWritten.ends_endLast he

/-- A group has its directives on lines of their own, also around a comment. -/
theorem guarded (hp : Text.IsLineStart p.text) {opening : String} (hopening : opening ≠ "")
    (closing : String)
    (h : (p.write (opening ++ ending.orLineFeed.text)).WritesLine debug active ending q items) :
    p.WritesLine debug active ending (q.finishLine.write (closing ++ ending.text))
      ([.kept (opening ++ ending.orLineFeed.text)] ++ endLast .lf items ++
        [.kept (closing ++ ending.text)]) := by
  have hopen : p.Writes debug active (p.write (opening ++ ending.orLineFeed.text)) _ :=
    Writes.kept p (opening ++ ending.orLineFeed.text)
  have hends : ∀ i ∈ [Item.kept (opening ++ ending.orLineFeed.text)], i.Ends :=
    List.forall_mem_singleton.mpr
      (Text.isLineStart_of_ending opening (Text.orLineFeed_ne_none ending))
  have hstart := hopen.isLineStart hp hends
  -- the opening directive has been written, so there is text to finish a line of
  have hne : q.text ≠ "" := by
    intro hempty
    rw [h.text, String.append_eq_empty_iff] at hempty
    exact hopening (String.append_eq_empty_iff.mp (String.append_eq_empty_iff.mp hempty.1).2).1
  have hgroup := hopen.trans hends (h.toWrites.finishLine hstart hne)
  have hallEnd : ∀ i ∈ [Item.kept (opening ++ ending.orLineFeed.text)] ++ endLast .lf items,
      i.Ends := List.forall_mem_append.mpr ⟨hends, h.toIsWritten.ends_endLast (by rintro ⟨⟩)⟩
  constructor
  · exact hgroup.trans hallEnd (Writes.kept q.finishLine _)
  · intro he
    exact List.forall_mem_append.mpr
      ⟨hallEnd, List.forall_mem_singleton.mpr (Text.isLineStart_of_ending closing he)⟩

end WritesLine
end Progress

/-! ### Lines -/

end Template

/-- What a line keeps of its own has no line feed. -/
def TemplateLine.HoldsNoFeed : TemplateLine → Prop
  | .guarded lead _ rest inner =>
      '\n' ∉ lead.toList ∧ '\n' ∉ rest.toList ∧ inner.HoldsNoFeed
  | .included lead _ => '\n' ∉ lead.toList
  | .text _ _ => True

namespace Template

theorem holdsNoFeed_parse {line : List Char} (h : '\n' ∉ line) :
    (TemplateLine.parse line).HoldsNoFeed := by
  have hblanks : ∀ {line : List Char}, '\n' ∉ line →
      '\n' ∉ (String.ofList (Text.leadingBlanks line)).toList := by
    intro line h hfeed
    rw [String.toList_ofList] at hfeed
    exact h ((List.takeWhile_sublist _).mem hfeed)
  fun_induction TemplateLine.parse line with
  | case1 line lead name rest hpredicate ih =>
    obtain ⟨rfl, hrest⟩ := sublist_of_predicate? hpredicate
    have hlead : (Text.leadingBlanks line).Sublist line := List.takeWhile_sublist _
    refine ⟨hblanks h, ?_, ih fun hfeed => ?_⟩
    · rw [String.toList_ofList]
      exact fun hfeed => h (hrest.mem hfeed)
    · rcases List.mem_append.mp hfeed with hfeed | hfeed
      · exact h (hlead.mem hfeed)
      · exact h (hrest.mem hfeed)
  | case2 => exact hblanks h
  | case3 => exact trivial

section Line

variable {ctx : Context} {debug : Bool} {file : Path} {indent : String} {ending : Text.Ending}
  {processIncluded : Path → String → Progress → Except GenerationError Progress}
  {included : Path → String → Except GenerationError (List Item)}

/-- **A line of a file**, processed at the start of a line, writes its items. -/
theorem agree_lineItems
    (hincluded : ∀ target indent, '\n' ∉ indent.toList → ∀ p : Progress,
      Text.IsLineStart p.text →
        Outcome.Agree (p.Writes debug ctx.active) (processIncluded target indent p)
          (included target indent))
    (hindent : '\n' ∉ indent.toList) {line : TemplateLine} (hline : line.HoldsNoFeed)
    {p : Progress} (hp : Text.IsLineStart p.text) :
    Outcome.Agree (p.WritesLine debug ctx.active ending)
      (processLine { ctx with debug := debug } file processIncluded indent ending line p)
      (lineItems ctx file included indent ending line) := by
  induction line generalizing p with
  | guarded lead field rest inner ih =>
    obtain ⟨hlead, hrest, hinner⟩ := hline
    have hboth : '\n' ∉ (indent ++ lead).toList := by simp [hindent, hlead]
    unfold processLine lineItems
    dsimp only
    cases hactivity : ctx.active.activity field with
    | always => exact ih hinner hp
    | permutations indices =>
      refine Outcome.Agree.bind (ih hinner ?_) fun q items hq => ?_
      · exact Progress.isLineStart_write p _ (Text.orLineFeed_ne_none ending)
      · refine Progress.WritesLine.guarded hp (fun hempty => ?_) _ hq
        have hdirective := (String.append_eq_empty_iff.mp hempty).2
        exact absurd (String.append_eq_empty_iff.mp hdirective).1 (by decide)
    | never => exact Progress.WritesLine.comment p hactivity hboth hrest
  | included lead path =>
    have hboth : '\n' ∉ (indent ++ lead).toList := by
      have hlead : '\n' ∉ lead.toList := hline
      simp [hindent, hlead]
    have hfile := hincluded (ctx.sharedDir.join ⟨path⟩) (indent ++ lead) hboth p hp
    exact hfile.bind fun q items hq => Progress.WritesLine.included hq hp
  | text lead pieces =>
    have hexpand : expand { ctx with debug := debug } file (indent ++ lead).toList pieces =
        expand ctx file (indent ++ lead).toList pieces :=
      expand_eq_of_sections (by rfl) file _ pieces
    unfold processLine lineItems
    rw [hexpand]
    cases expand ctx file (indent ++ lead).toList pieces with
    | error e => exact rfl
    | ok chars => exact Progress.WritesLine.kept p _

/-- The lines of a file, processed from the start of a line.  Only the last of them may lack a
terminator, so every line after another starts a line. -/
theorem agree_linesItems {active : ActiveFields}
    {process : Text.Line → Progress → Except GenerationError Progress}
    {f : Text.Line → Except GenerationError (List Item)} {lines : List Text.Line}
    (h : ∀ line ∈ lines, ∀ p : Progress, Text.IsLineStart p.text →
      Outcome.Agree (p.WritesLine debug active line.ending) (process line p) (f line))
    (hended : ∀ line ∈ lines.dropLast, line.ending ≠ .none) {p : Progress}
    (hp : Text.IsLineStart p.text) :
    Outcome.Agree (p.Writes debug active) (lines.foldlM (fun p line => process line p) p)
      (linesItems f lines) := by
  induction lines generalizing p with
  | nil => exact Progress.Writes.refl p
  | cons line lines ih =>
    obtain ⟨hline, hlines⟩ := List.forall_mem_cons.mp h
    obtain ⟨hfirst, hlater⟩ := Text.forall_dropLast_cons hended
    rw [List.foldlM_cons, linesItems]
    refine Outcome.Agree.bind (hline p hp) fun q items hq => ?_
    by_cases hne : lines = []
    · have hall : p.Writes debug active q (items ++ []) :=
        (List.append_nil items).symm ▸ hq.toWrites
      rw [hne]
      exact hall
    · have hends := hq.allEnd (hfirst hne)
      exact (ih hlines hlater (hq.isLineStart hp hends)).map_right fun r rest hr =>
        hq.toWrites.trans hends hr

end Line

/-! ### Files -/

/-- **A file**, processed at the start of a line, writes its items. -/
theorem agree_fileItems (ctx : Context) (debug : Bool) (fuel : Nat) (opened : List Path)
    (path : Path) {indent : String} (hindent : '\n' ∉ indent.toList) {p : Progress}
    (hp : Text.IsLineStart p.text) :
    Outcome.Agree (p.Writes debug ctx.active)
      (processFile { ctx with debug := debug } fuel opened path indent p)
      (fileItems ctx fuel opened path indent) := by
  induction fuel generalizing opened path indent p with
  | zero => exact rfl
  | succ fuel ih =>
    unfold processFile fileItems
    dsimp only
    cases ctx.store.readText? path with
    | none => exact rfl
    | some text =>
      have hopen : p.Writes debug ctx.active (p.depend path) [.file path] :=
        Progress.Writes.depend p path
      have hstart : Text.IsLineStart (p.depend path).text := by rwa [Progress.text_depend]
      refine (agree_linesItems (fun line hline q hq => ?_)
        (fun line hline => Text.ending_ne_none_of_mem_dropLast hline) hstart).map_right
          fun q items hq => hopen.trans (List.forall_mem_singleton.mpr trivial) hq
      refine agree_lineItems (fun target inner hinner q hq => ?_) hindent
        (holdsNoFeed_parse (Text.newline_notMem_body hline)) hq
      split
      · exact rfl
      · split
        · exact rfl
        · exact ih (path :: opened) target hinner hq

end Template

/-! ### Templates -/

open Template (Context Item Progress)

/-- The items for a template. -/
def templateItems (ctx : Context) (path : Path) : Except GenerationError (List Item) :=
  Template.fileItems ctx (ctx.store.lineCount + 2) [] path ""

variable {ctx : Context} {path : Path}

/-- A template that is there writes its items, with debug output or without. -/
theorem agree_templateItems (debug : Bool) (h : ctx.store.isFile path = true) :
    Outcome.Agree (fun out items => ∃ p, out = some p ∧
        Progress.Writes debug ctx.active ⟨"", []⟩ p items)
      (processTemplate { ctx with debug := debug } path) (templateItems ctx path) := by
  have hfile : Outcome.Agree (Progress.Writes debug ctx.active ⟨"", []⟩)
      (Template.processFile { ctx with debug := debug } (ctx.store.lineCount + 2) [] path ""
        ⟨"", []⟩) (templateItems ctx path) :=
    Template.agree_fileItems ctx debug _ [] path List.not_mem_nil (Or.inl rfl)
  rw [processTemplate, h]
  exact hfile.map_left fun p items hp => ⟨p, rfl, hp⟩

/-- **Debug output adds comments and nothing else.**  With debug output and without, a template
fails with the same error or depends on the same files.  The lines of the output are those of the
items, terminators included, and without debug output the comments are missing.  Each comment
belongs to a field that is active nowhere, and it is a line of its own. -/
theorem processTemplate_debug (ctx : Context) (path : Path) :
    Outcome.Agree (fun commented plain => commented = none ∧ plain = none ∨
        ∃ p q items, commented = some p ∧ plain = some q ∧
          templateItems ctx path = .ok items ∧ p.dependencies = q.dependencies ∧
          Text.split p.text = items.flatMap Item.lines ∧
          Text.split q.text = (items.filter fun i => !i.isComment).flatMap Item.lines ∧
          ∀ indent field rest ending, Item.comment indent field rest ending ∈ items →
            ctx.active.activity field = .never ∧
              ∃ l, (Item.comment indent field rest ending).lines = [l] ∧
                l.chars = (indent ++ "// " ++ rest ++ ending.text).toList)
      (processTemplate { ctx with debug := true } path)
      (processTemplate { ctx with debug := false } path) := by
  cases hfile : ctx.store.isFile path with
  | false =>
    have hnone : ∀ debug, processTemplate { ctx with debug := debug } path = .ok none := by
      intro debug
      rw [processTemplate, hfile]
      rfl
    rw [hnone, hnone]
    exact Or.inl ⟨rfl, rfl⟩
  | true =>
    have hboth := (agree_templateItems true hfile).through (agree_templateItems false hfile)
    refine hboth.mono fun commented plain h => Or.inr ?_
    obtain ⟨items, hitems, ⟨p, rfl, hp⟩, q, rfl, hq⟩ := h
    refine ⟨p, q, items, rfl, rfl, hitems, ?_, ?_, ?_, ?_⟩
    · rw [hp.dependencies, hq.dependencies]
    · rw [hp.text, String.empty_append]
      exact Template.split_shownText hp.ends true
    · rw [hq.text, String.empty_append, Template.split_shownText hq.ends]
      exact Template.flatMap_split_shown_false items
    · intro indent field rest ending hmem
      obtain ⟨hfield, hindent, hrest⟩ := hp.sound _ hmem
      obtain ⟨hfeed, hne⟩ := Item.comment_spec hindent hrest
      refine ⟨hfield, _, Text.split_ending hfeed hne ending, ?_⟩
      rw [Text.chars_endedLine, ← String.toList_append]

/-- The comment at the end of an included file takes the terminator of the line that includes
it. -/
example : templateItems ⟨FileStore.lookup ⟨[], [(["T"], .text "$include(\"I\")\r\nz"),
      (["I"], .text "x\n$V.a: y")]⟩, ⟨""⟩, [], ⟨[], []⟩, false⟩ ⟨"T"⟩ =
    .ok [.file ⟨"T"⟩, .file ⟨"I"⟩, .kept "x\n", .comment "" ⟨"V.a"⟩ "y" .crlf, .kept "z"] := by
  decide +kernel

end MaterialShader
