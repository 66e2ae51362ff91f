import MaterialShader.Proofs.WrittenLine

/-!
# Joined lines

A generated text has no terminator behind its last line, so its lines are what line feeds stand
between.  Put together and taken apart in this way, no line is lost, not even an empty one at
the end.  Reading a text line by line, as a writer does with a text that it is given, comes to
the same as long as the last line is not empty.

## Main definitions

* `Text.separated` — the lines of a text, between its line feeds.

## Main results

* `Code.text_eq_joinLines` — the text of a program is its written lines, joined.
* `Text.separated_joinLines`, `Text.bodies_joinLines` — joined lines are read back.
-/

namespace MaterialShader

/-! ### Joining and separating -/

namespace Text

variable {lines : List String}

/-- The lines of a text, which line feeds stand between. -/
def separated (s : String) : List String := (s.toList.splitOn '\n').map String.ofList

theorem joinLines_cons {line : String} (hne : lines ≠ []) :
    joinLines (line :: lines) = line ++ "\n" ++ joinLines lines := by
  obtain ⟨next, rest, rfl⟩ := List.exists_cons_of_ne_nil hne
  exact String.intercalate_cons_cons

theorem joinLines_append {rest : List String} (hlines : lines ≠ []) (hrest : rest ≠ []) :
    joinLines (lines ++ rest) = joinLines lines ++ "\n" ++ joinLines rest := by
  induction lines with
  | nil => exact absurd rfl hlines
  | cons line lines ih =>
    by_cases hnil : lines = []
    · rw [hnil, List.singleton_append, joinLines_cons hrest]
      simp [joinLines]
    · rw [List.cons_append, joinLines_cons (List.append_ne_nil_of_left_ne_nil hnil rest),
        joinLines_cons hnil, ih hnil]
      simp only [String.append_assoc]

/-- Lines that are joined beforehand may as well stand one by one. -/
theorem joinLines_joinLines (before : List String) {rest : List String} (hne : lines ≠ []) :
    joinLines (before ++ joinLines lines :: rest) = joinLines (before ++ lines ++ rest) := by
  induction before with
  | nil =>
    by_cases hrest : rest = []
    · simp [hrest, joinLines]
    · rw [List.nil_append, List.nil_append, joinLines_cons hrest, joinLines_append hne hrest]
  | cons line before ih =>
    rw [List.cons_append, List.cons_append, List.cons_append, joinLines_cons (by simp),
      joinLines_cons (by simp [hne]), ih]

/-- Joined lines lack the terminator of the last. -/
theorem terminated_eq_joinLines (hne : lines ≠ []) : terminated lines = joinLines lines ++ "\n" := by
  induction lines with
  | nil => exact absurd rfl hne
  | cons line lines ih =>
    by_cases hnil : lines = []
    · rw [hnil, terminated_cons, terminated_nil, String.append_empty]
      simp [joinLines]
    · rw [terminated_cons, ih hnil, joinLines_cons hnil]
      simp only [String.append_assoc]

/-- Joined lines are separated again. -/
theorem separated_joinLines (hne : lines ≠ []) (h : ∀ line ∈ lines, '\n' ∉ line.toList) :
    separated (joinLines lines) = lines := by
  have hchars : (joinLines lines).toList = ['\n'].intercalate (lines.map String.toList) :=
    String.toList_intercalate
  rw [separated, hchars, List.splitOn_intercalate]
  · simp [Function.comp_def]
  · simpa using h
  · simpa using hne

/-- A text without line feed is one line, unless it is empty. -/
theorem splitFrom_of_notMem {cs : List Char} (h : '\n' ∉ cs) (begun : List Char) :
    splitFrom begun cs =
      if begun = [] ∧ cs = [] then [] else [⟨begun.reverse ++ cs, .none⟩] := by
  induction cs generalizing begun with
  | nil => cases begun <;> simp [splitFrom]
  | cons c cs ih =>
    rw [List.mem_cons, not_or] at h
    rw [splitFrom, if_neg (Ne.symm h.1), ih h.2]
    simp

/-- Joined lines are read back by a writer if the last is not empty. -/
theorem bodies_joinLines (h : ∀ line ∈ lines, IsOneLine line)
    (hlast : lines.getLast? ≠ some "") : bodies (joinLines lines) = lines := by
  induction lines with
  | nil => rfl
  | cons line lines ih =>
    obtain ⟨⟨hfeed, hreturn⟩, hlines⟩ := List.forall_mem_cons.mp h
    by_cases hnil : lines = []
    · subst hnil
      have hne : line.toList ≠ [] := by
        intro hempty
        rw [List.getLast?_singleton, String.toList_eq_nil_iff.mp hempty] at hlast
        exact hlast rfl
      have hline : joinLines [line] = line := by simp [joinLines]
      rw [hline, bodies, split, splitFrom_of_notMem hfeed, if_neg fun hnil => hne hnil.2]
      simp
    · have hbody : (closeLine (line.toList.reverse ++ [])).body = line.toList := by
        rw [List.append_nil, body_closeLine (by simpa using hreturn), List.reverse_reverse]
      have hchars : (joinLines (line :: lines)).toList =
          line.toList ++ '\n' :: (joinLines lines).toList := by
        simp [joinLines_cons hnil]
      have hlast' : lines.getLast? ≠ some "" := by
        rwa [List.getLast?_cons, List.getLast?_eq_some_getLast hnil, Option.getD_some,
          ← List.getLast?_eq_some_getLast hnil] at hlast
      rw [bodies, split, hchars, splitFrom_append_newline hfeed, List.map_cons, hbody,
        String.ofList_toList]
      exact congrArg (line :: ·) (ih hlines hlast')

end Text

/-! ### The text of a program -/

namespace Code

theorem dropFinalNewline_append (s : String) : dropFinalNewline (s ++ "\n") = s := by
  simp [dropFinalNewline]

/-- **The text of a program** is the lines it writes, joined. -/
theorem text_eq_joinLines (program : List Code) :
    text program = Text.joinLines (writtenLines 0 program) := by
  rw [text, fullText_eq_terminated]
  by_cases hnil : writtenLines 0 program = []
  · rw [hnil]
    rfl
  · rw [Text.terminated_eq_joinLines hnil, dropFinalNewline_append]

/-- The lines of the text of a program are the lines it writes, if the last is not empty. -/
theorem bodies_text {program : List Code}
    (h : ∀ line ∈ writtenLines 0 program, Text.IsOneLine line)
    (hlast : (writtenLines 0 program).getLast? ≠ some "") :
    Text.bodies (text program) = writtenLines 0 program := by
  rw [text_eq_joinLines, Text.bodies_joinLines h hlast]

/-- The text of a program, put into another one, has the lines of the program. -/
theorem writtenLines_text (depth : Nat) {program : List Code}
    (h : ∀ line ∈ writtenLines 0 program, Text.IsOneLine line)
    (hlast : (writtenLines 0 program).getLast? ≠ some "") :
    writtenLines depth [.lines (text program)] = writtenLines depth program := by
  rw [writtenLines, writtenLines, List.append_nil, writtenLine, bodies_text h hlast,
    ← writtenLines_eq_map]

end Code

end MaterialShader
