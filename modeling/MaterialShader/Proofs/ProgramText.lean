import MaterialShader.Proofs.JoinedLine

/-!
# Programs written through their text

The parts of a shader are written apart, each by a writer of its own at depth zero.  The text of a
part is then given to the writer of the whole, which puts every line of it at its own depth.  Two
terminators are dropped on the way, that of the last line when the text is made, and that of every
line when it is read.  They make up for each other, and the whole looks as if its writer had
carried out the part itself.

One line can get lost: an empty last line is nothing but its terminator.

## Main definitions

* `Code.strings`, `Code.allStrings` — the strings that a step and a program are made of.

## Main results

* `Code.isOneLine_writtenLines` — no string breaks a line of the program.
* `Code.lines_text_eq_runAll_iff` — when the text of a program stands for the program.
-/

namespace MaterialShader

open Text (IsOneLine)

/-! ### Reading texts -/

/-- A text of one line has no other line. -/
theorem Text.eq_of_mem_bodies {s line : String} (h : IsOneLine s) (hmem : line ∈ bodies s) :
    line = s := by
  rw [bodies, split, splitFrom_of_notMem h.1] at hmem
  split at hmem
  · exact absurd hmem List.not_mem_nil
  · simpa using hmem

/-- Joined lines are read without the last if it is empty. -/
theorem Text.bodies_joinLines_empty {lines : List String} (h : ∀ line ∈ lines, IsOneLine line) :
    bodies (joinLines (lines ++ [""])) = lines := by
  by_cases hnil : lines = []
  · subst hnil
    decide
  · have hjoined : joinLines (lines ++ [""]) = terminated lines := by
      rw [joinLines_append hnil (List.cons_ne_nil _ _), terminated_eq_joinLines hnil]
      simp [joinLines]
    rw [hjoined, bodies_terminated h]

namespace Code

open Writer (lineBody)

/-! ### The strings of a program -/

mutual

/-- The strings that a step is made of. -/
def strings : Code → List String
  | .line s => [s]
  | .directive d => [d.text]
  | .lines s => [s]
  | .newline => []
  | .nested _ body => allStrings body

/-- The strings that a program is made of. -/
def allStrings : List Code → List String
  | [] => []
  | c :: rest => strings c ++ allStrings rest

end

/-- Braces are lines. -/
theorem isOneLine_edge (scope : Scope) :
    (∀ s ∈ scope.opening?, IsOneLine s) ∧ ∀ s ∈ scope.closing?, IsOneLine s := by
  cases scope <;> decide

mutual

/-- No string breaks a line of a step. -/
theorem isOneLine_writtenLine (depth : Nat) : ∀ c : Code, (∀ s ∈ strings c, IsOneLine s) →
    ∀ line ∈ writtenLine depth c, IsOneLine line
  | .line s, h => by
    intro line hline
    rw [List.mem_singleton.mp hline]
    exact Writer.isOneLine_lineBody (h s (List.mem_singleton_self s))
  | .directive d, h => by
    intro line hline
    rw [List.mem_singleton.mp hline]
    exact Writer.isOneLine_lineBody (h d.text (List.mem_singleton_self d.text))
  | .lines s, h => by
    intro line hline
    have hs : IsOneLine s := h s (List.mem_singleton_self s)
    obtain ⟨body, hbody, rfl⟩ := List.mem_map.mp hline
    rw [Text.eq_of_mem_bodies hs hbody]
    exact Writer.isOneLine_lineBody hs
  | .newline, _ => by
    intro line hline
    rw [List.mem_singleton.mp hline]
    decide
  | .nested scope body, h => by
    intro line hline
    obtain ⟨hopening, hclosing⟩ := isOneLine_edge scope
    rw [writtenLine, List.mem_append, List.mem_append] at hline
    rcases hline with (hline | hline) | hline
    · obtain ⟨s, hs, rfl⟩ := List.mem_map.mp hline
      exact Writer.isOneLine_lineBody (hopening s (Option.mem_toList.mp hs))
    · exact isOneLine_writtenLines (depth + 1) body h line hline
    · obtain ⟨s, hs, rfl⟩ := List.mem_map.mp hline
      exact Writer.isOneLine_lineBody (hclosing s (Option.mem_toList.mp hs))

/-- **No string breaks a line of a program** if none holds the characters of a terminator. -/
theorem isOneLine_writtenLines (depth : Nat) : ∀ program : List Code,
    (∀ s ∈ allStrings program, IsOneLine s) →
    ∀ line ∈ writtenLines depth program, IsOneLine line
  | [], _ => List.forall_mem_nil _
  | c :: rest, h => by
    obtain ⟨hc, hrest⟩ := List.forall_mem_append.mp h
    exact List.forall_mem_append.mpr
      ⟨isOneLine_writtenLine depth c hc, isOneLine_writtenLines depth rest hrest⟩

end

/-! ### Writing the text of a program -/

variable {program : List Code}

/-- The text of a program has all its lines but an empty last one. -/
theorem writtenLines_text_of_getLast? (depth : Nat)
    (h : ∀ line ∈ writtenLines 0 program, IsOneLine line)
    (hlast : (writtenLines 0 program).getLast? = some "") :
    writtenLines depth program = writtenLines depth [.lines (text program)] ++ [""] := by
  obtain ⟨lines, hlines⟩ := List.getLast?_eq_some_iff.mp hlast
  rw [hlines] at h
  obtain ⟨hfront, -⟩ := List.forall_mem_append.mp h
  have htext : Text.bodies (text program) = lines := by
    rw [text_eq_joinLines, hlines, Text.bodies_joinLines_empty hfront]
  calc writtenLines depth program
      = (lines ++ [""]).map (lineBody depth) := by rw [writtenLines_eq_map, hlines]
    _ = lines.map (lineBody depth) ++ [""] := by rw [List.map_append]; rfl
    _ = writtenLines depth [.lines (text program)] ++ [""] := by
      rw [writtenLines, writtenLines, List.append_nil, writtenLine, htext]

/-- **A text stands for the program that it was made of**: writing it line by line, at any depth
and behind any text, has the effect of the program.  This holds exactly if the last line of the
program is not empty.  No program changes the depth. -/
theorem lines_text_eq_runAll_iff (program : List Code) (w : Writer) :
    (runAll w program).depth = w.depth ∧
      ((∀ s ∈ allStrings program, IsOneLine s) →
        (w.lines (text program) = runAll w program ↔
          (Text.bodies (fullText 0 program)).getLast? ≠ some "")) := by
  refine ⟨by rw [runAll_eq], fun hstrings => ?_⟩
  have h := isOneLine_writtenLines 0 program hstrings
  have hread : w.lines (text program) =
      ⟨w.text ++ Text.terminated (writtenLines w.depth [.lines (text program)]), w.depth⟩ :=
    runAll_eq w [.lines (text program)]
  rw [bodies_fullText h, hread, runAll_eq w program]
  constructor
  · intro heq hlast
    -- one terminator more is written than read
    rw [writtenLines_text_of_getLast? w.depth h hlast, Text.terminated_append] at heq
    have hchars := congrArg (fun w : Writer => w.text.toList.length) heq
    simp [Text.terminated_cons] at hchars
  · intro hlast
    rw [writtenLines_text w.depth h hlast]

/-- A function with a branch, an empty line and a local struct. -/
def nestedProgram : List Code :=
  [.line "void Evaluate()",
    .nested .block [.line "struct Sum", .nested .declaration [.line "float a;"], .newline,
      .directive (.ifTrue (.all [.defined "DETAIL"])), .nested .indent [.line "a += 1;"],
      .directive .endIf]]

theorem lines_text_eq_runAll_iff_nested :
    (∀ s ∈ allStrings nestedProgram, IsOneLine s) ∧
      (Text.bodies (fullText 0 nestedProgram)).getLast? = some "\x7d" ∧
      ∀ w : Writer, w.lines (text nestedProgram) = runAll w nestedProgram := by
  have hstrings : ∀ s ∈ allStrings nestedProgram, IsOneLine s := by decide
  have hlast : (Text.bodies (fullText 0 nestedProgram)).getLast? = some "\x7d" := by
    decide +kernel
  refine ⟨hstrings, hlast, fun w => ?_⟩
  refine ((lines_text_eq_runAll_iff nestedProgram w).2 hstrings).mpr ?_
  rw [hlast]
  decide

/-- An empty last line is lost. -/
example : (Writer.start 1).lines (text [.line "a;", .newline]) = ⟨"    a;\n", 1⟩ ∧
    runAll (Writer.start 1) [.line "a;", .newline] = ⟨"    a;\n\n", 1⟩ := by
  decide +kernel

end Code
end MaterialShader
