import MaterialShader.Proofs.JoinedLine
import MaterialShader.Proofs.TemplateOutcome

/-!
# Sections in the text of a template

Where a line of a template is a token behind blanks, the lines of its section stand in the text,
each behind these blanks.  A section whose token no line names has no part in the text, whatever
it says.

## Main results

* `Text.bodies_endLine_joinLines` — joined lines are read one by one.
* `Template.lineTranscript_token` — the lines that stand for a token.
* `map_subset_bodies` — the lines of a section are in the text of a template with its token.
* `processTemplate_congr` — sections that no line names are not in the text.
-/

namespace MaterialShader

open Text (IsOneLine joinLines)

/-! ### Joined lines -/

namespace Text

variable {lines : List String}

/-- Joined lines are read one by one, however the last of them is terminated. -/
theorem bodies_endLine_joinLines (hne : lines ≠ [])
    (h : ∀ line ∈ lines, line ≠ "" ∧ IsOneLine line) (e after : Ending) :
    bodies (endLine after (joinLines lines ++ e.text)) = lines := by
  induction lines with
  | nil => exact absurd rfl hne
  | cons line lines ih =>
    obtain ⟨⟨hline, hfeed, hreturn⟩, hlines⟩ := List.forall_mem_cons.mp h
    have hlast : line.toList.getLast? ≠ some '\r' := fun hlast =>
      hreturn (List.mem_of_getLast? hlast)
    by_cases hnil : lines = []
    · have hone : joinLines [line] = line := by simp [joinLines]
      rw [hnil, hone]
      exact bodies_endLine_line hfeed hline hlast e after
    · have hstart : IsLineStart (line ++ Ending.lf.text) :=
        isLineStart_of_ending line (by rintro ⟨⟩)
      rw [joinLines_cons hnil, String.append_assoc, show "\n" = Ending.lf.text from rfl,
        endLine_append hstart, bodies_append hstart, bodies_line hfeed hline hlast, ih hnil hlines]
      rfl

/-- Joined lines that are not empty start with no line feed. -/
theorem exists_cons_of_joinLines (hne : lines ≠ [])
    (h : ∀ line ∈ lines, line ≠ "" ∧ '\n' ∉ line.toList) :
    ∃ c rest, (joinLines lines).toList = c :: rest ∧ c ≠ '\n' := by
  obtain ⟨line, lines, rfl⟩ := List.exists_cons_of_ne_nil hne
  obtain ⟨hline, hfeed⟩ := h line List.mem_cons_self
  obtain ⟨c, cs, hchars⟩ := List.exists_cons_of_ne_nil (mt String.toList_eq_nil_iff.mp hline)
  have hc : c ≠ '\n' := fun hc => hfeed (by rw [hchars, hc]; exact List.mem_cons_self)
  by_cases hnil : lines = []
  · exact ⟨c, cs, by simp [hnil, joinLines, hchars], hc⟩
  · exact ⟨c, cs ++ '\n' :: (joinLines lines).toList, by simp [joinLines_cons hnil, hchars], hc⟩

end Text

namespace Template

variable {ctx : Context} {file path : Path} {indent : List Char} {lines : List String}
  {lead name : String}

/-! ### Lines that are a token -/

theorem dropPrefix?_append (start rest : List Char) :
    dropPrefix? start (start ++ rest) = some rest := by
  induction start with
  | nil => rfl
  | cons c start ih => rw [List.cons_append, dropPrefix?, if_pos rfl, ih]

theorem piecesFrom_length (cs : List Char) : piecesFrom cs.length cs = [] := by
  induction cs with
  | nil => rfl
  | cons c cs ih => exact ih

variable {blanks word : List Char}

/-- A token is read up to its closing parenthesis, whatever stands behind it. -/
theorem tokenAt?_token (hne : word ≠ []) (h : ∀ c ∈ word, Text.isWordChar c = true)
    (rest : List Char) : tokenAt? (tokenStart ++ (word ++ ')' :: rest)) = some word := by
  have hclose : Text.isWordChar ')' = false := by decide
  have htake : (word ++ ')' :: rest).takeWhile Text.isWordChar = word := by
    rw [List.takeWhile_append_of_pos h, List.takeWhile_cons, hclose]
    simp
  have hdrop : (word ++ ')' :: rest).dropWhile Text.isWordChar = ')' :: rest := by
    rw [List.dropWhile_append_of_pos h, List.dropWhile_cons, hclose]
    simp
  rw [tokenAt?, dropPrefix?_append]
  dsimp only [Option.bind_eq_bind, Option.bind_some]
  rw [htake, hdrop]
  simp [dropPrefix?, hne]

/-- No token starts in blanks. -/
theorem pieces_append (h : ∀ c ∈ blanks, Text.isBlank c = true) (line : List Char) :
    pieces (blanks ++ line) = blanks.map .char ++ pieces line := by
  induction blanks with
  | nil => rfl
  | cons c blanks ih =>
    obtain ⟨hc, hblanks⟩ := List.forall_mem_cons.mp h
    have hdollar : '$' ≠ c := by
      rintro rfl
      exact absurd hc (by decide)
    have hnone : ∀ rest, tokenAt? (c :: rest) = none := by
      intro rest
      rw [tokenAt?, show tokenStart = '$' :: "splice(".toList from rfl, dropPrefix?, if_neg hdollar]
      rfl
    rw [List.cons_append, pieces, piecesFrom, hnone]
    exact congrArg _ (ih hblanks)

/-- The pieces of blanks and a token. -/
theorem pieces_token (hblanks : ∀ c ∈ blanks, Text.isBlank c = true) (hne : word ≠ [])
    (h : ∀ c ∈ word, Text.isWordChar c = true) :
    pieces (blanks ++ (tokenStart ++ (word ++ [')']))) =
      blanks.map .char ++ [.token (String.ofList word)] := by
  rw [pieces_append hblanks, pieces]
  refine congrArg (_ ++ ·) ?_
  -- behind the first character, the token is skipped to its end
  obtain ⟨tail, htail⟩ : ∃ tail, tokenStart = '$' :: tail := ⟨_, rfl⟩
  have hlength : (tail ++ (word ++ [')'])).length = tokenStart.length + word.length := by
    simp only [htail, List.length_append, List.length_cons, List.length_nil]
    omega
  have htoken := tokenAt?_token hne h []
  rw [htail, List.cons_append] at htoken
  rw [htail, List.cons_append, piecesFrom, htoken]
  dsimp only
  rw [← hlength, piecesFrom_length]

/-- **A line that is a token** behind blanks is read as such. -/
theorem parse_token (hblanks : ∀ c ∈ blanks, Text.isBlank c = true) (hne : word ≠ [])
    (h : ∀ c ∈ word, Text.isWordChar c = true) :
    TemplateLine.parse (blanks ++ (tokenStart ++ (word ++ [')']))) =
      .text (String.ofList blanks) (blanks.map .char ++ [.token (String.ofList word)]) := by
  have hstart : ∀ rest, (tokenStart ++ rest).dropWhile Text.isBlank = tokenStart ++ rest :=
    fun rest => rfl
  have hpredicate : predicate? (blanks ++ (tokenStart ++ (word ++ [')']))) = none := by
    rw [predicate?, List.dropWhile_append_of_pos hblanks, hstart]
    rfl
  have hinclude : includePath? (blanks ++ (tokenStart ++ (word ++ [')']))) = none := by
    rw [includePath?, List.dropWhile_append_of_pos hblanks, hstart]
    rfl
  have hlead : Text.leadingBlanks (blanks ++ (tokenStart ++ (word ++ [')']))) = blanks := by
    rw [Text.leadingBlanks, List.takeWhile_append_of_pos hblanks]
    exact List.append_nil blanks
  rw [TemplateLine.parse]
  split
  · next heq => exact absurd (hpredicate.symm.trans heq) (by rintro ⟨⟩)
  · rw [hinclude, hlead, pieces_token hblanks hne h]

theorem parse_splice (hblanks : ∀ c ∈ lead.toList, Text.isBlank c = true)
    (hname : name ≠ "" ∧ ∀ c ∈ name.toList, Text.isWordChar c = true) :
    TemplateLine.parse (lead ++ "$splice(" ++ name ++ ")").toList =
      .text lead (lead.toList.map .char ++ [.token name]) := by
  have hchars : (lead ++ "$splice(" ++ name ++ ")").toList =
      lead.toList ++ (tokenStart ++ (name.toList ++ [')'])) := by
    have hclose : ")".toList = [')'] := by decide
    have hstart : tokenStart = "$splice(".toList := rfl
    rw [String.toList_append, String.toList_append, String.toList_append, List.append_assoc,
      List.append_assoc, hclose, hstart]
  rw [hchars, parse_token hblanks (mt String.toList_eq_nil_iff.mp hname.1) hname.2,
    String.ofList_toList, String.ofList_toList]

/-! ### The lines of a section -/

theorem indentContinuation_cons {c : Char} (hc : c ≠ '\n') (rest : List Char) :
    indentContinuation indent (c :: rest) = c :: indentContinuation indent rest := by
  rw [indentContinuation.eq_def]
  exact if_neg hc

theorem indentContinuation_newline {c : Char} (hc : c ≠ '\n') (rest : List Char) :
    indentContinuation indent ('\n' :: c :: rest) =
      '\n' :: (indent ++ indentContinuation indent (c :: rest)) := by
  rw [indentContinuation.eq_def]
  dsimp only
  rw [if_pos rfl, if_neg hc]

theorem indentContinuation_append {line : List Char} (h : '\n' ∉ line) (rest : List Char) :
    indentContinuation indent (line ++ rest) = line ++ indentContinuation indent rest := by
  induction line with
  | nil => rfl
  | cons c line ih =>
    rw [List.mem_cons, not_or] at h
    rw [List.cons_append, indentContinuation_cons (Ne.symm h.1), ih h.2, List.cons_append]

/-- The later lines of a text are indented like the first. -/
theorem indentContinuation_joinLines (lead : String) (hne : lines ≠ [])
    (h : ∀ line ∈ lines, line ≠ "" ∧ '\n' ∉ line.toList) :
    lead.toList ++ indentContinuation lead.toList (joinLines lines).toList =
      (joinLines (lines.map (lead ++ ·))).toList := by
  induction lines with
  | nil => exact absurd rfl hne
  | cons line lines ih =>
    obtain ⟨⟨-, hline⟩, hlines⟩ := List.forall_mem_cons.mp h
    by_cases hnil : lines = []
    · subst hnil
      have hlast : indentContinuation lead.toList (line.toList ++ []) = line.toList ++ [] :=
        indentContinuation_append hline []
      rw [List.append_nil] at hlast
      simp [joinLines, hlast]
    · -- the next line starts with no line feed, so it is indented
      obtain ⟨c, rest, hnext, hc⟩ := Text.exists_cons_of_joinLines hnil hlines
      have hmap : lines.map (lead ++ ·) ≠ [] := by simpa using hnil
      rw [List.map_cons, Text.joinLines_cons hnil, Text.joinLines_cons hmap]
      simp only [String.toList_append, List.append_assoc]
      rw [indentContinuation_append hline, ← ih hnil hlines, hnext]
      exact congrArg _ (congrArg _ (indentContinuation_newline hc rest))

theorem expand_char {cs : List Char} {pieces : List Piece} {chars : List Char}
    (h : expand ctx file indent pieces = .ok chars) :
    expand ctx file indent (cs.map .char ++ pieces) = .ok (cs ++ chars) := by
  induction cs with
  | nil => exact h
  | cons c cs ih =>
    rw [List.map_cons, List.cons_append, expand, ih]
    rfl

/-- **The lines that stand for a token** behind blanks: those of its section, behind the same
blanks. -/
theorem lineTranscript_token
    {included : Text.Ending → Path → String → Except GenerationError (List Step)}
    (ending after : Text.Ending) (hsection : ctx.sections.get? name = some (joinLines lines))
    (hne : lines ≠ []) (h : ∀ line ∈ lines, line ≠ "" ∧ '\n' ∉ line.toList) :
    lineTranscript ctx file included "" ending after
        (.text lead (lead.toList.map Piece.char ++ [.token name])) =
      .ok (textSteps after (joinLines (lines.map (lead ++ ·)) ++ ending.text)) := by
  have hexpand : expand ctx file lead.toList (lead.toList.map Piece.char ++ [.token name]) =
      .ok (joinLines (lines.map (lead ++ ·))).toList := by
    rw [← indentContinuation_joinLines lead hne h]
    refine expand_char ?_
    rw [expand, hsection]
    exact congrArg Except.ok (List.append_nil _)
  have hchars : (joinLines (lines.map (lead ++ ·))).toList.isEmpty = false := by
    rw [← indentContinuation_joinLines lead hne h]
    obtain ⟨c, rest, hjoined, hc⟩ := Text.exists_cons_of_joinLines hne h
    rw [hjoined, indentContinuation_cons hc]
    simp
  rw [lineTranscript, String.empty_append, hexpand]
  refine congrArg (fun s => Except.ok (textSteps after (s ++ ending.text))) ?_
  rw [hchars, if_neg Bool.false_ne_true, String.empty_append, String.ofList_toList]

theorem exists_of_mem_linesTranscript {f : Text.Line → Except GenerationError (List Step)}
    {all : List Text.Line} {l : Text.Line} {steps : List Step} (hl : l ∈ all)
    (h : linesTranscript f all = .ok steps) : ∃ part, f l = .ok part ∧ part ⊆ steps := by
  induction all generalizing steps with
  | nil => exact absurd hl List.not_mem_nil
  | cons first all ih =>
    obtain ⟨part, hpart, h⟩ := Outcome.bind_eq_ok_iff.mp h
    obtain ⟨rest, hrest, h⟩ := Outcome.bind_eq_ok_iff.mp h
    rw [← Outcome.pure_eq_ok_iff.mp h]
    rcases List.mem_cons.mp hl with rfl | hl
    · exact ⟨part, hpart, List.subset_append_left _ _⟩
    · obtain ⟨part', hpart', hsub⟩ := ih hl hrest
      exact ⟨part', hpart', List.subset_append_of_subset_right _ hsub⟩

end Template

open Template (Context Progress linesOf)

/-- **The lines of a section** are in the text of a template that names its token, behind the
blanks of the token. -/
theorem map_subset_bodies {ctx : Context} {path : Path} {text lead name : String}
    {lines : List String} {out : Progress} (hread : ctx.store.readText? path = some text)
    (hline : lead ++ "$splice(" ++ name ++ ")" ∈ Text.bodies text)
    (hblanks : ∀ c ∈ lead.toList, Text.isBlank c = true) (hlead : IsOneLine lead)
    (hname : name ≠ "" ∧ ∀ c ∈ name.toList, Text.isWordChar c = true)
    (hsection : ctx.sections.get? name = some (joinLines lines)) (hne : lines ≠ [])
    (h : ∀ line ∈ lines, line ≠ "" ∧ IsOneLine line)
    (hok : processTemplate ctx path = .ok (some out)) :
    lines.map (lead ++ ·) ⊆ Text.bodies out.text := by
  have hagree := agree_processTemplate (ctx.store.isFile_of_readText? hread)
  obtain ⟨steps, hsteps, q, hq, hbodies, -⟩ := hagree.exists_right hok
  obtain rfl : out = q := Option.some.inj hq
  obtain ⟨l, hl, hbody⟩ := List.mem_map.mp hline
  have hparse := Template.parse_splice hblanks hname
  rw [← hbody, String.toList_ofList] at hparse
  rw [templateTranscript, Template.fileTranscript, hread] at hsteps
  obtain ⟨all, hall, hsteps⟩ := Outcome.bind_eq_ok_iff.mp hsteps
  rw [← Outcome.pure_eq_ok_iff.mp hsteps] at hbodies
  obtain ⟨part, hpart, hsub⟩ := Template.exists_of_mem_linesTranscript hl hall
  rw [hparse, Template.lineTranscript_token l.ending .none hsection hne
    fun line hline => ⟨(h line hline).1, (h line hline).2.1⟩] at hpart
  rw [← Except.ok.inj hpart] at hsub
  have hlines : Text.bodies (Text.endLine .none
      (joinLines (lines.map (lead ++ ·)) ++ l.ending.text)) = lines.map (lead ++ ·) := by
    refine Text.bodies_endLine_joinLines (by simpa using hne) ?_ l.ending .none
    refine List.forall_mem_map.mpr fun line hline => ⟨?_, ?_⟩
    · simp [(h line hline).1]
    · exact Text.isOneLine_append.mpr ⟨hlead, (h line hline).2⟩
  intro line hline
  rw [← hlines, ← Template.linesOf_textSteps] at hline
  obtain ⟨step, hstep, hwrites⟩ := List.mem_filterMap.mp hline
  rw [hbodies, Template.linesOf_append]
  exact List.mem_append_right _ (List.mem_filterMap.mpr ⟨step, hsub hstep, hwrites⟩)

/-! ### Sections that no line names -/

namespace Template

variable {ctx : Context} {sections : Sections} {file path : Path} {names paths : List String}
  {text : String}

/-- What a text stands for depends on the sections of its tokens only. -/
theorem expand_congr {indent : List Char} {pieces : List Piece}
    (h : ∀ name ∈ pieces.filterMap Piece.token?, sections.get? name = ctx.sections.get? name) :
    expand { ctx with sections := sections } file indent pieces = expand ctx file indent pieces := by
  induction pieces with
  | nil => rfl
  | cons piece pieces ih =>
    cases piece with
    | char c => rw [expand, expand, ih h]
    | token name =>
      obtain ⟨hname, hrest⟩ := List.forall_mem_cons.mp h
      rw [expand, expand, ih hrest, hname]

/-- What a line adds depends on the sections of its tokens and on what it includes. -/
theorem processLine_congr {included included' : Path → String → Progress →
      Except GenerationError Progress} {indent : String} {ending : Text.Ending}
    {line : TemplateLine}
    (htokens : ∀ name ∈ line.tokens, sections.get? name = ctx.sections.get? name)
    (hincludes : ∀ name ∈ line.includes, included' (ctx.sharedDir.join ⟨name⟩) =
      included (ctx.sharedDir.join ⟨name⟩)) (p : Progress) :
    processLine { ctx with sections := sections } file included' indent ending line p =
      processLine ctx file included indent ending line p := by
  induction line generalizing p with
  | guarded lead field rest inner ih =>
    rw [processLine, processLine]
    cases ctx.active.activity field with
    | always => exact ih htokens hincludes p
    | permutations indices =>
      dsimp only
      rw [ih htokens hincludes]
    | never => rfl
  | included lead name =>
    rw [processLine, processLine, hincludes name (List.mem_singleton_self name)]
  | text lead pieces => rw [processLine, processLine, expand_congr htokens]

/-- What a file adds depends on the sections of its tokens and on what it includes. -/
theorem processFile_congr {fuel : Nat} {opened : List Path}
    (hread : ctx.store.readText? path = some text) (hasks : AsksOnly names paths text)
    (hnames : ∀ name ∈ names, sections.get? name = ctx.sections.get? name)
    (hpaths : ∀ name ∈ paths, processFile { ctx with sections := sections } fuel (path :: opened)
        (ctx.sharedDir.join ⟨name⟩) =
      processFile ctx fuel (path :: opened) (ctx.sharedDir.join ⟨name⟩)) :
    processFile { ctx with sections := sections } (fuel + 1) opened path =
      processFile ctx (fuel + 1) opened path := by
  funext indent p
  rw [processFile, processFile, hread]
  refine Outcome.foldlM_congr fun p line hline => ?_
  obtain ⟨htokens, hincludes⟩ := hasks line hline
  refine processLine_congr (fun name hname => hnames name (htokens hname)) ?_ p
  intro name hname
  funext inner p
  rw [hpaths name (hincludes hname)]

end Template

/-- **Sections that no line names** are not in the text of a template. -/
theorem processTemplate_congr {ctx : Context} {sections : Sections} {path : Path}
    {names paths : List String} {text : String} (hread : ctx.store.readText? path = some text)
    (hasks : Template.AsksOnly names paths text)
    (hnames : ∀ name ∈ names, sections.get? name = ctx.sections.get? name)
    (hpaths : ∀ name ∈ paths, ∃ inner,
      ctx.store.readText? (ctx.sharedDir.join ⟨name⟩) = some inner ∧
        Template.AsksOnly names [] inner) :
    processTemplate { ctx with sections := sections } path = processTemplate ctx path := by
  have hfile : Template.processFile { ctx with sections := sections } (ctx.store.lineCount + 2) []
      path = Template.processFile ctx (ctx.store.lineCount + 2) [] path := by
    refine Template.processFile_congr hread hasks hnames fun name hname => ?_
    obtain ⟨inner, hinner, hasks'⟩ := hpaths name hname
    exact Template.processFile_congr hinner hasks' hnames fun _ h => absurd h List.not_mem_nil
  rw [processTemplate, processTemplate, hfile]

end MaterialShader
