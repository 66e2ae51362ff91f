import Mathlib.Data.List.DropRight
import MaterialShader.FilePlace
import MaterialShader.Proofs.SplitLine
import MaterialShader.Proofs.TokenCut

/-!
# Templates of text alone

A template without lines under a field and without includes is kept as it is, but for its
tokens.  Processing cuts it into lines, takes the terminators off, cuts each line at its tokens,
and puts everything together again.  Here the whole text is cut at its tokens once, and the
result is said without lines: what stands between the tokens stays, and each token gives way to
its section.

No character of a terminator stands inside a token.  So the cuts of the lines, one after another,
are the cut of the text.  The blanks that a section is indented with can be seen from a token,
too, since it does not start with a blank.

## Main definitions

* `Template.inserted`, `Template.Cut.fill` — a section in the place of a token, and a text with
  all sections in their places.
* `Template.expandFrom` — the pieces of a whole text with sections in the place of tokens.
* `Template.HoldsTextOnly` — a template without lines under a field and without includes.

## Main results

* `Template.indentContinuation_eq_inserted` — how later lines of a section are indented.
* `Template.foldlM_processLine` — lines of text are processed as the text they make up.
* `processTemplate_fill` — what a template of text alone results in.
-/

namespace MaterialShader

namespace Template

open Text (leadingBlanks)

variable {rest : List Char} {c : Char}

/-! ### Sections in the place of tokens -/

/-- Lines of which each after the first stands behind blanks, unless it is empty. -/
def indentLater (blanks : List Char) : List (List Char) → List (List Char)
  | [] => []
  | first :: later => first :: later.map fun line => if line = [] then [] else blanks ++ line

/-- What stands in the place of a token: the text with its later lines indented. -/
def inserted (blanks text : List Char) : List Char :=
  ['\n'].intercalate (indentLater blanks (text.splitOn '\n'))

theorem append_intercalate (sep xs first : List Char) (later : List (List Char)) :
    xs ++ sep.intercalate (first :: later) = sep.intercalate ((xs ++ first) :: later) := by
  cases later with
  | nil => simp
  | cons next later => simp [List.intercalate_cons_cons]

/-- The line behind a line feed is indented, unless it is empty. -/
theorem indentContinuation_feed {first : List Char} {later : List (List Char)}
    (h : rest.splitOn '\n' = first :: later) (blanks : List Char) :
    indentContinuation blanks ('\n' :: rest) =
      '\n' :: ((if first = [] then [] else blanks) ++ indentContinuation blanks rest) := by
  cases rest with
  | nil =>
    rw [← (List.cons.inj h).1]
    rfl
  | cons d rest =>
    rw [List.splitOn, List.splitOnP_cons_eq_if_modifyHead] at h
    by_cases hd : d = '\n'
    · rw [if_pos (by simpa using hd)] at h
      rw [← (List.cons.inj h).1, hd, indentContinuation.eq_def]
      simp
    · rw [if_neg (by simpa using hd)] at h
      obtain ⟨next, last, hnext⟩ :=
        List.exists_cons_of_ne_nil (List.splitOnP_ne_nil (· == '\n') rest)
      rw [hnext, List.modifyHead_cons] at h
      rw [← (List.cons.inj h).1, indentContinuation_newline hd, if_neg (List.cons_ne_nil _ _)]

/-- **The later lines of a section** are indented, unless they are empty. -/
theorem indentContinuation_eq_inserted (blanks text : List Char) :
    indentContinuation blanks text = inserted blanks text := by
  induction text with
  | nil => rfl
  | cons c rest ih =>
    obtain ⟨first, later, hsplit⟩ :=
      List.exists_cons_of_ne_nil (List.splitOnP_ne_nil (· == '\n') rest)
    have hlines : rest.splitOn '\n' = first :: later := hsplit
    rw [inserted, hlines, indentLater] at ih
    rw [inserted, List.splitOn, List.splitOnP_cons_eq_if_modifyHead, hsplit]
    by_cases hc : c = '\n'
    · rw [if_pos (by simpa using hc), hc, indentContinuation_feed hlines, ih, append_intercalate,
        indentLater, List.map_cons, List.intercalate_cons_cons]
      by_cases hfirst : first = []
      · simp [hfirst]
      · simp [hfirst]
    · rw [if_neg (by simpa using hc), List.modifyHead_cons, indentContinuation_cons hc, ih,
        ← List.singleton_append, append_intercalate]
      rfl

/-- The line that a text ends in the middle of. -/
def lastLine (before : List Char) : List Char := before.rtakeWhile (· != '\n')

/-- The tokens of a text and what stands behind them, with a section in the place of each token;
`before` is the text up to there. -/
def fillFrom (sections : Sections) : List Char → List (String × List Char) → List Char
  | _, [] => []
  | before, (name, kept) :: rest =>
      inserted (leadingBlanks (lastLine before)) ((sections.get? name).getD "").toList ++ kept ++
        fillFrom sections (before ++ tokenText name ++ kept) rest

/-- A text with a section in the place of each token.  Later lines of a section are indented like
the line that the token stands on. -/
def Cut.fill (sections : Sections) (c : Cut) : String :=
  String.ofList (c.head ++ fillFrom sections c.head c.tail)

/-! ### The pieces of a whole text -/

variable {ctx : Context} {file : Path} {before done : List Char} {ps : List Piece}

/-- A piece as it is written. -/
def Piece.chars : Piece → List Char
  | .char c => [c]
  | .token name => tokenText name

/-- The pieces of a text are what it is made of. -/
theorem flatMap_chars_pieces (cs : List Char) : (pieces cs).flatMap Piece.chars = cs := by
  induction cs using reading_induction with
  | nil => rfl
  | char c cs hnone ih => rw [pieces_cons hnone, List.flatMap_cons, ih, Piece.chars]; rfl
  | token name rest hname ih =>
    rw [pieces_tokenText hname, List.flatMap_cons, ih, Piece.chars]

theorem flatMap_chars_map_char (cs : List Char) : (cs.map Piece.char).flatMap Piece.chars = cs := by
  induction cs with
  | nil => rfl
  | cons c cs ih => rw [List.map_cons, List.flatMap_cons, ih, Piece.chars]; rfl

/-- The characters of pieces with sections in the place of tokens, line breaks among them;
`before` is the text up to there. -/
def expandFrom (ctx : Context) (file : Path) :
    List Char → List Piece → Except GenerationError (List Char)
  | _, [] => .ok []
  | before, .char c :: rest => do return c :: (← expandFrom ctx file (before ++ [c]) rest)
  | before, .token name :: rest =>
      match ctx.sections.get? name with
      | none => .error (.missingSpliceToken name file)
      | some text => do
          return indentContinuation (leadingBlanks (lastLine before)) text.toList ++
            (← expandFrom ctx file (before ++ tokenText name) rest)

theorem expandFrom_append (ps qs : List Piece) (before : List Char) :
    expandFrom ctx file before (ps ++ qs) = (do
      let chars ← expandFrom ctx file before ps
      return chars ++ (← expandFrom ctx file (before ++ ps.flatMap Piece.chars) qs)) := by
  induction ps generalizing before with
  | nil =>
    rw [List.nil_append, List.flatMap_nil, List.append_nil]
    cases expandFrom ctx file before qs <;> rfl
  | cons piece ps ih =>
    cases piece with
    | char c =>
      rw [List.cons_append, expandFrom, expandFrom]
      simp only [ih, bind_assoc, pure_bind, List.flatMap_cons, Piece.chars, List.append_assoc,
        List.cons_append]
    | token name =>
      rw [List.cons_append, expandFrom, expandFrom]
      cases ctx.sections.get? name with
      | none => rfl
      | some text =>
        simp only [ih, bind_assoc, pure_bind, List.flatMap_cons, Piece.chars, List.append_assoc]

theorem expandFrom_map_char (cs : List Char) (before : List Char) :
    expandFrom ctx file before (cs.map .char) = .ok cs := by
  induction cs generalizing before with
  | nil => rfl
  | cons c cs ih => rw [List.map_cons, expandFrom, ih]; rfl

/-! ### Lines of text -/

/-- The pieces of a line, its terminator included. -/
def linePieces (l : Text.Line) : List Piece := pieces l.body ++ l.ending.text.toList.map .char

theorem flatMap_chars_linePieces (l : Text.Line) :
    (linePieces l).flatMap Piece.chars = l.chars := by
  rw [linePieces, List.flatMap_append, flatMap_chars_pieces, flatMap_chars_map_char]
  rfl

/-- A line of text and what stands behind its terminator are read one after another. -/
theorem pieces_chars_append {l : Text.Line} (h : l.ending = .none → rest = []) :
    pieces (l.chars ++ rest) = linePieces l ++ pieces rest := by
  obtain ⟨body, ending⟩ := l
  rw [linePieces, Text.Line.chars]
  cases ending with
  | none =>
    rw [h rfl]
    simp [Text.Ending.text, pieces, piecesFrom]
  | lf =>
    have hchars : (body ++ Text.Ending.lf.text.toList) ++ rest = body ++ '\n' :: rest := by
      simp [Text.Ending.text]
    rw [hchars, pieces_append_cons isNeverInside_feed, pieces_cons_of_ne (by decide)]
    simp [Text.Ending.text]
  | crlf =>
    have hchars : (body ++ Text.Ending.crlf.text.toList) ++ rest = body ++ '\r' :: '\n' :: rest := by
      simp [Text.Ending.text]
    rw [hchars, pieces_append_cons isNeverInside_return, pieces_cons_of_ne (by decide),
      pieces_cons_of_ne (by decide)]
    simp [Text.Ending.text]

/-- **Lines are read as the text they make up**, if only the last can lack a terminator. -/
theorem pieces_flatMap_chars {lines : List Text.Line}
    (hended : ∀ l ∈ lines.dropLast, l.ending ≠ .none) :
    pieces (lines.flatMap Text.Line.chars) = lines.flatMap linePieces := by
  induction lines with
  | nil => rfl
  | cons l lines ih =>
    obtain ⟨hfirst, hlater⟩ := Text.forall_dropLast_cons hended
    have hlast : l.ending = .none → lines.flatMap Text.Line.chars = [] := by
      intro hnone
      by_cases hne : lines = []
      · rw [hne, List.flatMap_nil]
      · exact absurd hnone (hfirst hne)
    rw [List.flatMap_cons, List.flatMap_cons, pieces_chars_append hlast, ih hlater]

/-- What is written behind the characters starts a line. -/
def StartsLine (before : List Char) : Prop := before = [] ∨ before.getLast? = some '\n'

theorem lastLine_append (hbefore : StartsLine before) (hdone : '\n' ∉ done) :
    lastLine (before ++ done) = done := by
  have hkept : ∀ c ∈ done.reverse, (c != '\n') = true := by
    intro c hc
    rw [bne_iff_ne]
    rintro rfl
    exact hdone (List.mem_reverse.mp hc)
  have hstop : before.reverse.takeWhile (· != '\n') = [] := by
    rcases hbefore with rfl | hlast
    · rfl
    · obtain ⟨front, rfl⟩ := List.getLast?_eq_some_iff.mp hlast
      simp
  rw [lastLine, List.rtakeWhile, List.reverse_append, List.takeWhile_append_of_pos hkept, hstop,
    List.append_nil, List.reverse_reverse]

theorem leadingBlanks_append_cons (hc : Text.isBlank c = false) (cs rest : List Char) :
    leadingBlanks (cs ++ c :: rest) = leadingBlanks cs := by
  induction cs with
  | nil => simp [leadingBlanks, hc]
  | cons d cs ih =>
    rw [leadingBlanks, leadingBlanks] at ih
    rw [leadingBlanks, leadingBlanks, List.cons_append, List.takeWhile_cons, List.takeWhile_cons, ih]

/-- **In a line of text** all tokens see the same blanks, since those end before the first. -/
theorem expandFrom_eq_expand (hbefore : StartsLine before)
    (hfeed : '\n' ∉ done ++ ps.flatMap Piece.chars) :
    expandFrom ctx file (before ++ done) ps =
      expand ctx file (leadingBlanks (done ++ ps.flatMap Piece.chars)) ps := by
  induction ps generalizing done with
  | nil => rfl
  | cons piece ps ih =>
    rw [List.flatMap_cons, ← List.append_assoc] at hfeed ⊢
    have hrest := ih hfeed
    rw [← List.append_assoc] at hrest
    cases piece with
    | char c =>
      rw [expandFrom, expand, ← hrest]
      rfl
    | token name =>
      have hdone : '\n' ∉ done := fun hmem =>
        hfeed (List.mem_append_left _ (List.mem_append_left _ hmem))
      have hblanks : leadingBlanks (done ++ Piece.chars (.token name) ++
          ps.flatMap Piece.chars) = leadingBlanks done := by
        rw [Piece.chars, tokenText, List.append_assoc, List.cons_append]
        exact leadingBlanks_append_cons (by decide) _ _
      rw [expandFrom, expand, ← hrest, hblanks, lastLine_append hbefore hdone]
      rfl

/-- What a line of text adds. -/
theorem processLine_of_text {line : List Char} (hpredicate : predicate? line = none)
    (hinclude : includePath? line = none)
    (included : Path → String → Progress → Except GenerationError Progress)
    (ending : Text.Ending) (p : Progress) :
    processLine ctx file included "" ending (TemplateLine.parse line) p = (do
      let chars ← expand ctx file (leadingBlanks line) (pieces line)
      return p.write (String.ofList (chars ++ ending.text.toList))) := by
  have hparse : TemplateLine.parse line =
      .text (String.ofList (leadingBlanks line)) (pieces line) := by
    rw [TemplateLine.parse]
    split
    · next heq => exact absurd (hpredicate.symm.trans heq) (by rintro ⟨⟩)
    · rw [hinclude]
  rw [hparse, processLine, String.empty_append, String.toList_ofList]
  cases expand ctx file (leadingBlanks line) (pieces line) with
  | error e => rfl
  | ok chars =>
    have hwritten : (if chars.isEmpty then "" else "" ++ String.ofList chars) ++ ending.text =
        String.ofList (chars ++ ending.text.toList) := by
      rw [String.ofList_append, String.ofList_toList]
      cases chars with
      | nil => rfl
      | cons c chars => rw [List.isEmpty_cons, if_neg Bool.false_ne_true, String.empty_append]
    exact congrArg (fun s => Except.ok (p.write s)) hwritten

/-- What a line of text adds, from the pieces of the line. -/
theorem processLine_eq_expandFrom {l : Text.Line} (hpredicate : predicate? l.body = none)
    (hinclude : includePath? l.body = none) (hfeed : '\n' ∉ l.body) (hbefore : StartsLine before)
    (included : Path → String → Progress → Except GenerationError Progress) (p : Progress) :
    processLine ctx file included "" l.ending (TemplateLine.parse l.body) p = (do
      return p.write (String.ofList (← expandFrom ctx file before (linePieces l)))) := by
  have hexpand : expandFrom ctx file (before ++ []) (pieces l.body) =
      expand ctx file (leadingBlanks ([] ++ (pieces l.body).flatMap Piece.chars)) (pieces l.body) :=
    expandFrom_eq_expand hbefore (by rwa [List.nil_append, flatMap_chars_pieces])
  rw [List.append_nil, List.nil_append, flatMap_chars_pieces] at hexpand
  rw [processLine_of_text hpredicate hinclude, linePieces, expandFrom_append, hexpand]
  simp only [expandFrom_map_char, bind_assoc, pure_bind]
  rfl

theorem startsLine_of_ending {l : Text.Line} (h : l.ending ≠ .none) (before : List Char) :
    StartsLine (before ++ l.chars) := by
  refine Or.inr ?_
  obtain ⟨body, ending⟩ := l
  rw [Text.Line.chars]
  cases ending with
  | none => exact absurd rfl h
  | lf => simp [Text.Ending.text]
  | crlf => simp [Text.Ending.text]

theorem write_write (p : Progress) (a b : List Char) :
    (p.write (String.ofList a)).write (String.ofList b) = p.write (String.ofList (a ++ b)) := by
  simp [Progress.write, String.append_assoc]

/-- **Lines of text** are processed as the text they make up. -/
theorem foldlM_processLine {lines : List Text.Line}
    (hplain : ∀ l ∈ lines, predicate? l.body = none ∧ includePath? l.body = none)
    (hfeed : ∀ l ∈ lines, '\n' ∉ l.body) (hended : ∀ l ∈ lines.dropLast, l.ending ≠ .none)
    (hbefore : StartsLine before)
    (included : Path → String → Progress → Except GenerationError Progress) (p : Progress) :
    lines.foldlM (fun p l =>
        processLine ctx file included "" l.ending (TemplateLine.parse l.body) p) p = (do
      return p.write (String.ofList
        (← expandFrom ctx file before (lines.flatMap linePieces)))) := by
  induction lines generalizing before p with
  | nil =>
    have hwrite : p = p.write (String.ofList []) := by simp [Progress.write]
    exact congrArg Except.ok hwrite
  | cons l lines ih =>
    obtain ⟨⟨hpredicate, hinclude⟩, hplain⟩ := List.forall_mem_cons.mp hplain
    obtain ⟨hline, hfeed⟩ := List.forall_mem_cons.mp hfeed
    obtain ⟨hfirst, hlater⟩ := Text.forall_dropLast_cons hended
    -- the next line, if there is one, starts behind a line feed
    have hrest : ∀ q : Progress, lines.foldlM (fun p l =>
        processLine ctx file included "" l.ending (TemplateLine.parse l.body) p) q = (do
        return q.write (String.ofList
          (← expandFrom ctx file (before ++ l.chars) (lines.flatMap linePieces)))) := by
      intro q
      by_cases hne : lines = []
      · rw [hne]
        have hwrite : q = q.write (String.ofList []) := by simp [Progress.write]
        exact congrArg Except.ok hwrite
      · exact ih hplain hfeed hlater (startsLine_of_ending (hfirst hne) before) q
    rw [List.foldlM_cons, processLine_eq_expandFrom hpredicate hinclude hline hbefore,
      List.flatMap_cons, expandFrom_append, flatMap_chars_linePieces]
    simp only [bind_assoc, pure_bind, hrest, write_write]

/-! ### A text with all sections in their places -/

section Fill

variable {tail : List (String × List Char)}

/-- **Where no section is missing**, the tokens give way to their sections. -/
theorem expandFrom_tailPieces (h : ∀ name ∈ tail.map Prod.fst, (ctx.sections.get? name).isSome)
    (before : List Char) :
    expandFrom ctx file before (tailPieces tail) = .ok (fillFrom ctx.sections before tail) := by
  induction tail generalizing before with
  | nil => rfl
  | cons t tail ih =>
    obtain ⟨name, kept⟩ := t
    obtain ⟨hname, htail⟩ := List.forall_mem_cons.mp h
    obtain ⟨text, htext⟩ := Option.isSome_iff_exists.mp hname
    rw [tailPieces, List.flatMap_cons, ← tailPieces, List.cons_append, expandFrom, htext]
    dsimp only
    rw [expandFrom_append, expandFrom_map_char, flatMap_chars_map_char, fillFrom, htext,
      ← indentContinuation_eq_inserted]
    dsimp only [bind, Except.bind]
    rw [ih htail]
    simp [pure, Except.pure]

/-- The first token without a section is an error. -/
theorem expandFrom_tailPieces_error {first later : List String} {name : String}
    (hnames : tail.map Prod.fst = first ++ name :: later)
    (hfirst : ∀ n ∈ first, (ctx.sections.get? n).isSome)
    (hname : ctx.sections.get? name = none) (before : List Char) :
    expandFrom ctx file before (tailPieces tail) = .error (.missingSpliceToken name file) := by
  induction tail generalizing first before with
  | nil => exact absurd hnames.symm (by simp)
  | cons t tail ih =>
    obtain ⟨word, kept⟩ := t
    rw [List.map_cons] at hnames
    rw [tailPieces, List.flatMap_cons, ← tailPieces, List.cons_append, expandFrom]
    cases first with
    | nil =>
      obtain rfl := (List.cons.inj hnames).1
      rw [hname]
    | cons n first =>
      obtain ⟨rfl, htail⟩ := List.cons.inj hnames
      obtain ⟨hsome, hfirst⟩ := List.forall_mem_cons.mp hfirst
      obtain ⟨text, htext⟩ := Option.isSome_iff_exists.mp hsome
      rw [htext]
      dsimp only
      rw [expandFrom_append, expandFrom_map_char, ih htail hfirst]
      rfl

end Fill

/-- A template without lines under a field and without includes. -/
def HoldsTextOnly (text : String) : Prop :=
  ∀ l ∈ Text.split text, predicate? l.body = none ∧ includePath? l.body = none

instance (text : String) : Decidable (HoldsTextOnly text) :=
  inferInstanceAs (Decidable (∀ l ∈ Text.split text,
    predicate? l.body = none ∧ includePath? l.body = none))

end Template

open Template (Context Cut HoldsTextOnly)

variable {ctx : Context} {path : Path} {text : String}

/-- A template of text alone is processed as one text. -/
theorem processTemplate_eq_expandFrom (hread : ctx.store.readText? path = some text)
    (htext : HoldsTextOnly text) :
    processTemplate ctx path = (do
      return some ⟨String.ofList (← Template.expandFrom ctx path [] (Template.pieces text.toList)),
        [path]⟩) := by
  have hended : ∀ l ∈ (Text.split text).dropLast, l.ending ≠ .none :=
    fun l => Text.ending_ne_none_of_mem_dropLast
  have hpieces : (Text.split text).flatMap Template.linePieces = Template.pieces text.toList := by
    rw [← Template.pieces_flatMap_chars hended, Text.split, Text.flatMap_chars_splitFrom]
    rfl
  rw [processTemplate, ctx.store.isFile_of_readText? hread, Template.processFile, hread]
  dsimp only
  rw [Template.foldlM_processLine htext (fun l => Text.newline_notMem_body) hended (Or.inl rfl),
    hpieces]
  cases Template.expandFrom ctx path [] (Template.pieces text.toList) with
  | error e => rfl
  | ok chars =>
    have hwrite : (Template.Progress.depend ⟨"", []⟩ path).write (String.ofList chars) =
        ⟨String.ofList chars, [path]⟩ := by
      simp [Template.Progress.depend, Template.Progress.write, Path.isAmong]
    exact congrArg (fun p => Except.ok (some p)) hwrite

/-- **A template of text alone.**  Every template can be cut at all of its tokens.  If each token
has a section, then the result is the template with the sections in the place of the tokens,
their later lines indented like the line of the token, and all else as it was.  If not, the first
token without a section is named. -/
theorem processTemplate_fill (hread : ctx.store.readText? path = some text)
    (htext : HoldsTextOnly text) :
    (∃ c : Cut, c.IsCutOf text.toList) ∧ ∀ c : Cut, c.IsCutOf text.toList →
      ((∀ name ∈ c.names, (ctx.sections.get? name).isSome) →
        processTemplate ctx path = .ok (some ⟨c.fill ctx.sections, [path]⟩)) ∧
      ∀ first name later, c.names = first ++ name :: later →
        (∀ n ∈ first, (ctx.sections.get? n).isSome) → ctx.sections.get? name = none →
          processTemplate ctx path = .error (.missingSpliceToken name path) := by
  refine ⟨Template.exists_isCutOf _, fun c hc => ?_⟩
  have hpieces := Template.pieces_of_isCutOf hc
  have hcut : processTemplate ctx path = (do
      return some ⟨String.ofList (c.head ++
        (← Template.expandFrom ctx path c.head (Template.tailPieces c.tail))), [path]⟩) := by
    rw [processTemplate_eq_expandFrom hread htext, hpieces, Template.expandFrom_append,
      Template.expandFrom_map_char, Template.flatMap_chars_map_char, List.nil_append]
    simp only [bind_assoc, pure_bind]
    rfl
  rw [hcut]
  constructor
  · intro hnames
    rw [Template.expandFrom_tailPieces hnames]
    rfl
  · intro first name later hnames hfirst hname
    rw [Template.expandFrom_tailPieces_error hnames hfirst hname]
    rfl

/-- Two lines with tokens and an empty one between them, terminated in three ways. -/
def mixedText : String := "\t$splice(A)x$splice(B)\r\n\n  y $splice(A)"

/-- The cut of the text. -/
def mixedCut : Cut := ⟨['\t'], [("A", ['x']), ("B", "\r\n\n  y ".toList), ("A", [])]⟩

/-- The text as a template.  One section holds an empty line and what reads like a token, the
other holds nothing. -/
def mixedTemplate : Context where
  store := FileStore.lookup ⟨[], [(["T"], .text mixedText)]⟩
  sharedDir := ⟨""⟩
  sections := [("A", "1\n\n2$splice(B)"), ("B", "")]
  active := ⟨[], []⟩
  debug := false

theorem processTemplate_fill_mixed :
    processTemplate mixedTemplate ⟨"T"⟩ =
        .ok (some ⟨"\t1\n\n\t2$splice(B)x\r\n\n  y 1\n\n  2$splice(B)", [⟨"T"⟩]⟩) ∧
      processTemplate { mixedTemplate with sections := [("A", "1")] } ⟨"T"⟩ =
        .error (.missingSpliceToken "B" ⟨"T"⟩) := by
  have htext : HoldsTextOnly mixedText := by decide +kernel
  have hcut : mixedCut.IsCutOf mixedText.toList := by decide +kernel
  constructor
  · have hread : mixedTemplate.store.readText? ⟨"T"⟩ = some mixedText := by decide +kernel
    have hfill : mixedCut.fill mixedTemplate.sections =
        "\t1\n\n\t2$splice(B)x\r\n\n  y 1\n\n  2$splice(B)" := by decide +kernel
    rw [← hfill]
    exact ((processTemplate_fill hread htext).2 mixedCut hcut).1 (by decide +kernel)
  · exact ((processTemplate_fill (by decide +kernel) htext).2 mixedCut hcut).2 ["A"] "B" ["A"] rfl
      (by decide +kernel) (by decide +kernel)

end MaterialShader
