import Mathlib.Data.List.Basic
import MaterialShader.Code

/-!
# Written lines

The text of a program is the lines that its steps write, each terminated.  A line that holds no
terminator of its own is read back from the text as it was written.

## Main definitions

* `Writer.lineBody` — a line at a depth, without its terminator.
* `Code.writtenLines` — the lines that a program writes.
* `Text.IsOneLine` — no character of a text can end a line.

## Main results

* `Code.fullText_eq_terminated` — the text of a program is its written lines.
* `Code.bodies_fullText` — splitting the text of a program gives its written lines.
-/

namespace MaterialShader

/-! ### Reading terminated lines -/

namespace Text

/-- No character of a text can end a line or belong to its terminator. -/
def IsOneLine (s : String) : Prop := '\n' ∉ s.toList ∧ '\r' ∉ s.toList

instance (s : String) : Decidable (IsOneLine s) := inferInstanceAs (Decidable (_ ∧ _))

theorem isOneLine_append {s t : String} : IsOneLine (s ++ t) ↔ IsOneLine s ∧ IsOneLine t := by
  simp only [IsOneLine, String.toList_append, List.mem_append, not_or]
  tauto

theorem isOneLine_intercalate {separator : String} {texts : List String}
    (hseparator : IsOneLine separator) (h : ∀ text ∈ texts, IsOneLine text) :
    IsOneLine (separator.intercalate texts) := by
  induction texts with
  | nil => exact (by decide : IsOneLine "")
  | cons text rest ih =>
    obtain ⟨htext, hrest⟩ := List.forall_mem_cons.mp h
    cases rest with
    | nil => simpa using htext
    | cons next rest =>
      rw [String.intercalate_cons_cons]
      exact isOneLine_append.mpr ⟨isOneLine_append.mpr ⟨htext, hseparator⟩, ih hrest⟩

/-- Lines, each with a line feed behind it. -/
def terminated (lines : List String) : String := String.join (lines.map (· ++ "\n"))

theorem terminated_nil : terminated [] = "" := rfl

theorem terminated_cons (line : String) (lines : List String) :
    terminated (line :: lines) = line ++ "\n" ++ terminated lines := by
  simp [terminated, String.join_cons]

theorem terminated_append (lines rest : List String) :
    terminated (lines ++ rest) = terminated lines ++ terminated rest := by
  induction lines with
  | nil => simp [terminated_nil]
  | cons line lines ih => simp [terminated_cons, ih, String.append_assoc]

/-- A line feed closes what has begun before it. -/
theorem splitFrom_append_newline {cs rest : List Char} (h : '\n' ∉ cs) (begun : List Char) :
    splitFrom begun (cs ++ '\n' :: rest) =
      closeLine (cs.reverse ++ begun) :: splitFrom [] rest := by
  induction cs generalizing begun with
  | nil => simp [splitFrom]
  | cons c cs ih =>
    rw [List.mem_cons, not_or] at h
    rw [List.cons_append, splitFrom, if_neg (Ne.symm h.1), ih h.2]
    simp

theorem body_closeLine {begun : List Char} (h : '\r' ∉ begun) :
    (closeLine begun).body = begun.reverse := by
  unfold closeLine
  split
  · simp at h
  · rfl

/-- Terminated lines are read back. -/
theorem bodies_terminated {lines : List String} (h : ∀ line ∈ lines, IsOneLine line) :
    bodies (terminated lines) = lines := by
  induction lines with
  | nil => rfl
  | cons line lines ih =>
    obtain ⟨⟨hfeed, hreturn⟩, hlines⟩ := List.forall_mem_cons.mp h
    -- the line has no return at its end that would be taken for a part of the terminator
    have hbody : (closeLine (line.toList.reverse ++ [])).body = line.toList := by
      rw [List.append_nil, body_closeLine (by simpa using hreturn), List.reverse_reverse]
    have hchars : (terminated (line :: lines)).toList =
        line.toList ++ '\n' :: (terminated lines).toList := by
      simp [terminated_cons]
    rw [bodies, split, hchars, splitFrom_append_newline hfeed, List.map_cons, hbody,
      String.ofList_toList]
    exact congrArg (line :: ·) (ih hlines)

end Text

/-! ### Writing lines -/

namespace Writer

/-- A line at a depth, without its terminator; an empty line is not indented. -/
def lineBody (depth : Nat) (line : String) : String :=
  if line.isEmpty then "" else indentation depth ++ line

theorem lineText_eq (depth : Nat) (line : String) :
    lineText depth line = lineBody depth line ++ "\n" := by
  unfold lineText lineBody
  split <;> rfl

theorem toList_indentation (depth : Nat) :
    (indentation depth).toList = List.replicate (4 * depth) ' ' := String.toList_ofList

@[simp] theorem lineBody_zero (line : String) : lineBody 0 line = line := by
  unfold lineBody
  split
  · next h => exact (String.isEmpty_iff.mp h).symm
  · exact String.empty_append

theorem indentation_add (outer inner : Nat) :
    indentation (outer + inner) = indentation outer ++ indentation inner := by
  apply String.toList_injective
  rw [String.toList_append, toList_indentation, toList_indentation, toList_indentation,
    List.replicate_append_replicate, Nat.mul_add]

/-- A line that is indented again stands deeper. -/
theorem lineBody_lineBody (outer inner : Nat) (line : String) :
    lineBody outer (lineBody inner line) = lineBody (outer + inner) line := by
  by_cases hempty : line.isEmpty = true
  · simp [lineBody, hempty]
  · have hne : ¬(indentation inner ++ line).isEmpty = true := by
      rw [String.isEmpty_iff, String.append_eq_empty_iff, not_and]
      exact fun _ => mt String.isEmpty_iff.mpr hempty
    simp only [lineBody, if_neg hempty, if_neg hne, indentation_add, String.append_assoc]

theorem isOneLine_lineBody {depth : Nat} {line : String} (h : Text.IsOneLine line) :
    Text.IsOneLine (lineBody depth line) := by
  unfold lineBody
  split
  · decide
  · refine Text.isOneLine_append.mpr ⟨?_, h⟩
    simp [Text.IsOneLine, toList_indentation, List.mem_replicate]

theorem lines_eq (w : Writer) (s : String) :
    w.lines s = ⟨w.text ++ Text.terminated ((Text.bodies s).map (lineBody w.depth)), w.depth⟩ := by
  unfold lines
  induction Text.bodies s generalizing w with
  | nil => simp [Text.terminated_nil]
  | cons s rest ih =>
    rw [List.foldl_cons, ih]
    simp [line, lineText_eq, Text.terminated_cons, String.append_assoc]

end Writer

namespace Code

open Writer (lineBody)

mutual

/-- The lines that a step writes at a depth. -/
def writtenLine (depth : Nat) : Code → List String
  | .line s => [lineBody depth s]
  | .directive d => [lineBody depth d.text]
  | .lines s => (Text.bodies s).map (lineBody depth)
  | .newline => [""]
  | .nested scope body =>
      scope.opening?.toList.map (lineBody depth) ++ writtenLines (depth + 1) body ++
        scope.closing?.toList.map (lineBody depth)

/-- The lines that a program writes at a depth. -/
def writtenLines (depth : Nat) : List Code → List String
  | [] => []
  | c :: rest => writtenLine depth c ++ writtenLines depth rest

end

theorem writtenLines_append (depth : Nat) (program rest : List Code) :
    writtenLines depth (program ++ rest) =
      writtenLines depth program ++ writtenLines depth rest := by
  induction program with
  | nil => rfl
  | cons c program ih => simp [writtenLines, ih]

theorem writtenLines_flatMap {ι : Type} (depth : Nat) (items : List ι) (f : ι → List Code) :
    writtenLines depth (items.flatMap f) = items.flatMap fun i => writtenLines depth (f i) := by
  induction items with
  | nil => rfl
  | cons i items ih => simp [writtenLines_append, ih]

mutual

/-- The lines of a step at a greater depth are its lines indented again. -/
theorem writtenLine_add (outer inner : Nat) : ∀ c : Code,
    writtenLine (outer + inner) c = (writtenLine inner c).map (lineBody outer)
  | .line s => by simp [writtenLine, Writer.lineBody_lineBody]
  | .directive d => by simp [writtenLine, Writer.lineBody_lineBody]
  | .lines s => by simp [writtenLine, Writer.lineBody_lineBody, Function.comp_def]
  | .newline => by simp [writtenLine, lineBody]
  | .nested scope body => by
    simp [writtenLine, Writer.lineBody_lineBody, Nat.add_assoc, writtenLines_add outer _ body,
      Function.comp_def]

/-- The lines of a program at a greater depth are its lines indented again. -/
theorem writtenLines_add (outer inner : Nat) : ∀ program : List Code,
    writtenLines (outer + inner) program = (writtenLines inner program).map (lineBody outer)
  | [] => rfl
  | c :: rest => by
    rw [writtenLines, writtenLines, writtenLine_add outer inner c,
      writtenLines_add outer inner rest, List.map_append]

end

/-- The lines of a program at a depth are those at depth zero, indented. -/
theorem writtenLines_eq_map (depth : Nat) (program : List Code) :
    writtenLines depth program = (writtenLines 0 program).map (lineBody depth) := by
  have hadd := writtenLines_add depth 0 program
  rwa [Nat.add_zero] at hadd

theorem writeEdge_eq (w : Writer) (edge : Option String) :
    writeEdge w edge =
      ⟨w.text ++ Text.terminated (edge.toList.map (lineBody w.depth)), w.depth⟩ := by
  cases edge with
  | none => simp [writeEdge, Text.terminated_nil]
  | some s =>
    simp [writeEdge, Writer.line, Writer.lineText_eq, Text.terminated_cons, Text.terminated_nil]

mutual

/-- A step adds its lines to the text and leaves the depth as it was. -/
theorem run_eq (w : Writer) : ∀ c : Code,
    run w c = ⟨w.text ++ Text.terminated (writtenLine w.depth c), w.depth⟩
  | .line s => by
    simp [run, writtenLine, Writer.line, Writer.lineText_eq, Text.terminated_cons,
      Text.terminated_nil]
  | .directive d => by
    simp [run, writtenLine, Writer.line, Writer.lineText_eq, Text.terminated_cons,
      Text.terminated_nil]
  | .lines s => Writer.lines_eq w s
  | .newline => by
    simp [run, writtenLine, Writer.newline, Text.terminated_cons, Text.terminated_nil]
  | .nested scope body => by
    simp [run, writtenLine, writeEdge_eq, runAll_eq _ body, Text.terminated_append,
      Writer.deeper, Writer.shallower, String.append_assoc]

/-- A program adds its lines to the text and leaves the depth as it was. -/
theorem runAll_eq (w : Writer) : ∀ program : List Code,
    runAll w program = ⟨w.text ++ Text.terminated (writtenLines w.depth program), w.depth⟩
  | [] => by simp [runAll, writtenLines, Text.terminated_nil]
  | c :: rest => by
    rw [runAll, run_eq w c, runAll_eq _ rest, writtenLines, Text.terminated_append]
    simp [String.append_assoc]

end

/-- **The text of a program** is the lines it writes, each terminated. -/
theorem fullText_eq_terminated (depth : Nat) (program : List Code) :
    fullText depth program = Text.terminated (writtenLines depth program) := by
  rw [fullText, runAll_eq]
  exact String.empty_append

/-- The lines of the text of a program are the lines it writes. -/
theorem bodies_fullText {depth : Nat} {program : List Code}
    (h : ∀ line ∈ writtenLines depth program, Text.IsOneLine line) :
    Text.bodies (fullText depth program) = writtenLines depth program := by
  rw [fullText_eq_terminated, Text.bodies_terminated h]

/-- The text of a program, written as lines of another one, has the lines of the program. -/
theorem writtenLines_fullText (depth : Nat) {program : List Code}
    (h : ∀ line ∈ writtenLines 0 program, Text.IsOneLine line) :
    writtenLines depth [.lines (fullText 0 program)] = writtenLines depth program := by
  -- the lines are written once at depth zero, and then indented to the depth
  rw [writtenLines, writtenLines, List.append_nil, writtenLine, bodies_fullText h,
    ← writtenLines_eq_map]

end Code
end MaterialShader
