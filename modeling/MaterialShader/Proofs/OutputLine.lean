import Mathlib.Data.List.DropRight
import Mathlib.Data.List.Forall2
import Mathlib.Data.List.TakeWhile
import MaterialShader.Proofs.JoinedLine
import MaterialShader.Proofs.PlainString

/-!
# Lines of an output

An output is written piece by piece, and its lines are those of the pieces as long as every
piece starts at the start of a line.  Terminators differ between files, and the last line of a
file may lack one, so a line may have to wait for its terminator until something else is written.

Lines are compared without their terminators, but what a line waits for is not quite indifferent
to it.  A carriage return at its end is text, unless a line feed is written right behind it: then
the two are a terminator, and the line is shorter by one character.

## Main definitions

* `Text.IsLineStart` — what is written behind a text starts a line.
* `Text.endLine` — a text with its last line ended.
* `Text.MayReturn` — a line is another, or that with one more carriage return.
* `Text.Ending.MayShorten` — a terminator that may take a carriage return from a line.
* `Text.IsIndentation` — blanks that a line may start with.
* `Preprocessor.outputRole` — what a line of an output is to the preprocessor.

## Main results

* `Text.split_append`, `Text.bodies_append` — a text at the start of a line adds its lines.
* `Text.bodies_endLine_line` — a line is itself, however it is ended.
* `Text.forall₂_bodies_endLine` — a line feed takes no more from a text than a carriage return.
-/

namespace MaterialShader
namespace Text

variable {s t : String} {e : Ending}

/-! ### What a text adds to another -/

/-- What is written behind the text starts a line. -/
def IsLineStart (s : String) : Prop := s = "" ∨ s.toList.getLast? = some '\n'

instance (s : String) : Decidable (IsLineStart s) := inferInstanceAs (Decidable (_ ∨ _))

theorem splitFrom_append_of_line (cs rest begun : List Char) :
    splitFrom begun (cs ++ ['\n'] ++ rest) = splitFrom begun (cs ++ ['\n']) ++ splitFrom [] rest := by
  induction cs generalizing begun with
  | nil => simp [splitFrom]
  | cons c cs ih =>
    rw [List.cons_append, List.cons_append, splitFrom, splitFrom, ih, ih]
    split <;> rfl

/-- **At the start of a line**, a text adds its lines. -/
theorem split_append (hs : IsLineStart s) (t : String) : split (s ++ t) = split s ++ split t := by
  obtain rfl | hlast := hs
  · rw [String.empty_append]
    rfl
  · obtain ⟨cs, hcs⟩ := List.getLast?_eq_some_iff.mp hlast
    rw [split, String.toList_append, hcs, splitFrom_append_of_line, split, hcs, split]

theorem bodies_append (hs : IsLineStart s) (t : String) :
    bodies (s ++ t) = bodies s ++ bodies t := by
  rw [bodies, split_append hs, List.map_append]
  rfl

theorem isLineStart_append (hs : IsLineStart s) (ht : IsLineStart t) : IsLineStart (s ++ t) := by
  rcases ht with rfl | ht
  · rwa [String.append_empty]
  · refine Or.inr ?_
    rw [String.toList_append, List.getLast?_append, ht]
    rfl

/-- What a text ends with is seen from a text behind it, if that is not empty. -/
theorem isLineStart_append_iff (hs : IsLineStart s) : IsLineStart (s ++ t) ↔ IsLineStart t := by
  refine ⟨fun h => ?_, isLineStart_append hs⟩
  by_cases ht : t = ""
  · exact Or.inl ht
  · rcases h with h | h
    · exact absurd (String.append_eq_empty_iff.mp h).2 ht
    · rw [String.toList_append,
        List.getLast?_append_of_ne_nil _ (mt String.toList_eq_nil_iff.mp ht)] at h
      exact Or.inr h

theorem isLineStart_of_ending (s : String) (he : e ≠ .none) : IsLineStart (s ++ e.text) := by
  refine Or.inr ?_
  cases e with
  | none => exact absurd rfl he
  | lf => simp [Ending.text]
  | crlf => simp [Ending.text]

theorem orLineFeed_ne_none (e : Ending) : e.orLineFeed ≠ .none := by
  cases e <;> decide

/-! ### The last line of a text -/

/-- A text with its last line ended, unless it is ended already or there is none. -/
def endLine (e : Ending) (s : String) : String :=
  if s.isEmpty || s.toList.getLast? == some '\n' then s else s ++ e.text

theorem endLine_of_isLineStart (h : IsLineStart s) (e : Ending) : endLine e s = s := by
  unfold endLine
  rcases h with rfl | h
  · rfl
  · rw [h]
    simp

theorem endLine_of_not (h : ¬IsLineStart s) (e : Ending) : endLine e s = s ++ e.text := by
  rw [IsLineStart, not_or] at h
  rw [endLine, if_neg]
  simp [h.1, h.2]

@[simp] theorem endLine_none (s : String) : endLine .none s = s := by
  by_cases hs : IsLineStart s
  · exact endLine_of_isLineStart hs .none
  · rw [endLine_of_not hs]
    exact String.append_empty

theorem endLine_append (hs : IsLineStart s) (t : String) (e : Ending) :
    endLine e (s ++ t) = s ++ endLine e t := by
  by_cases ht : IsLineStart t
  · rw [endLine_of_isLineStart (isLineStart_append hs ht), endLine_of_isLineStart ht]
  · rw [endLine_of_not (mt (isLineStart_append_iff hs).mp ht), endLine_of_not ht,
      String.append_assoc]

theorem isLineStart_endLine (he : e ≠ .none) (s : String) : IsLineStart (endLine e s) := by
  by_cases hs : IsLineStart s
  · rwa [endLine_of_isLineStart hs]
  · rw [endLine_of_not hs]
    exact isLineStart_of_ending s he

/-- The terminator of a line that ends with one terminator or else with another. -/
def Ending.orElse : Ending → Ending → Ending
  | .none, after => after
  | e, _ => e

theorem endLine_endLine (after e : Ending) (s : String) :
    endLine after (endLine e s) = endLine (e.orElse after) s := by
  cases e with
  | none => rw [endLine_none]; rfl
  | lf => exact endLine_of_isLineStart (isLineStart_endLine (e := .lf) nofun s) after
  | crlf => exact endLine_of_isLineStart (isLineStart_endLine (e := .crlf) nofun s) after

/-! ### One line -/

/-- The line that some characters without line feeds are in front of a terminator. -/
def endedLine (cs : List Char) : Ending → Line
  | .none => ⟨cs, .none⟩
  | .lf => closeLine cs.reverse
  | .crlf => ⟨cs, .crlf⟩

theorem chars_endedLine (cs : List Char) (e : Ending) :
    (endedLine cs e).chars = cs ++ e.text.toList := by
  cases e with
  | none => rfl
  | lf => rw [endedLine, chars_closeLine, List.reverse_reverse]; rfl
  | crlf => rfl

/-- Characters without line feeds are one line, however it is terminated. -/
theorem split_ending (hfeed : '\n' ∉ s.toList) (hne : s ≠ "") (e : Ending) :
    split (s ++ e.text) = [endedLine s.toList e] := by
  have hchars : s.toList ≠ [] := mt String.toList_eq_nil_iff.mp hne
  rw [split, String.toList_append]
  cases e with
  | none =>
    have hnone : s.toList ++ Ending.none.text.toList = s.toList := List.append_nil _
    rw [hnone, splitFrom_of_notMem hfeed, if_neg fun h => hchars h.2]
    rfl
  | lf =>
    have hlf : s.toList ++ Ending.lf.text.toList = s.toList ++ '\n' :: [] := rfl
    rw [hlf, splitFrom_append_newline hfeed, List.append_nil]
    rfl
  | crlf =>
    have hcrlf : s.toList ++ Ending.crlf.text.toList = (s.toList ++ ['\r']) ++ '\n' :: [] := by
      rw [List.append_assoc]
      rfl
    rw [hcrlf, splitFrom_append_newline (by simpa using hfeed), List.append_nil,
      List.reverse_append]
    simp [closeLine, endedLine, splitFrom]

theorem closeLine_of_head? {begun : List Char} (h : begun.head? ≠ some '\r') :
    closeLine begun = ⟨begun.reverse, .lf⟩ := by
  unfold closeLine
  split
  · exact absurd rfl h
  · rfl

theorem body_endedLine {cs : List Char} (h : cs.getLast? ≠ some '\r') (e : Ending) :
    (endedLine cs e).body = cs := by
  cases e with
  | none => rfl
  | lf =>
    rw [endedLine, closeLine_of_head? (by rwa [List.head?_reverse])]
    exact List.reverse_reverse cs
  | crlf => rfl

theorem bodies_ending (hfeed : '\n' ∉ s.toList) (hne : s ≠ "") (e : Ending) :
    bodies (s ++ e.text) = [String.ofList (endedLine s.toList e).body] := by
  rw [bodies, split_ending hfeed hne, List.map_singleton]

/-- A line is itself, however it is terminated. -/
theorem bodies_line (hfeed : '\n' ∉ s.toList) (hne : s ≠ "")
    (hreturn : s.toList.getLast? ≠ some '\r') (e : Ending) : bodies (s ++ e.text) = [s] := by
  rw [bodies_ending hfeed hne, body_endedLine hreturn, String.ofList_toList]

/-- **A line is itself**, with the terminator that it has or else with another. -/
theorem bodies_endLine_line (hfeed : '\n' ∉ s.toList) (hne : s ≠ "")
    (hreturn : s.toList.getLast? ≠ some '\r') (e after : Ending) :
    bodies (endLine after (s ++ e.text)) = [s] := by
  have hopen : ¬IsLineStart s := by
    rintro (rfl | hlast)
    · exact hne rfl
    · exact hfeed (List.mem_of_getLast? hlast)
  rw [← endLine_of_not hopen, endLine_endLine, endLine_of_not hopen, bodies_line hfeed hne hreturn]

/-! ### Carriage returns at the end of a line -/

/-- A line is another, or where `p` holds, it may be that with one more carriage return. -/
def MayReturn (p : Prop) (line line' : String) : Prop := line' = line ∨ p ∧ line' = line ++ "\r"

theorem forall₂_mayReturn_refl (p : Prop) (lines : List String) :
    List.Forall₂ (MayReturn p) lines lines := by
  induction lines with
  | nil => exact .nil
  | cons line lines ih => exact .cons (Or.inl rfl) ih

/-- Lines that may have one more carriage return are the same where none ends with one. -/
theorem eq_of_forall₂_mayReturn {p : Prop} {lines lines' : List String}
    (h : List.Forall₂ (MayReturn p) lines lines')
    (hreturn : ¬p ∨ ∀ line ∈ lines', line.toList.getLast? ≠ some '\r') : lines = lines' := by
  induction h with
  | nil => rfl
  | @cons line line' lines lines' hline _ ih =>
    have hrest : ¬p ∨ ∀ line ∈ lines', line.toList.getLast? ≠ some '\r' :=
      hreturn.imp_right fun h => (List.forall_mem_cons.mp h).2
    obtain rfl | ⟨hp, rfl⟩ := hline
    · rw [ih hrest]
    · have hlast := (List.forall_mem_cons.mp (hreturn.resolve_left (not_not_intro hp))).1
      exact absurd (by simp) hlast

theorem mayReturn_endedLine {cs : List Char} (e : Ending) :
    MayReturn True (String.ofList (endedLine cs .lf).body) (String.ofList (endedLine cs e).body) := by
  by_cases hreturn : cs.getLast? = some '\r'
  · obtain ⟨front, rfl⟩ := List.getLast?_eq_some_iff.mp hreturn
    have hlf : (endedLine (front ++ ['\r']) .lf).body = front := by simp [endedLine, closeLine]
    rw [hlf]
    cases e with
    | none => exact Or.inr ⟨trivial, String.ofList_append⟩
    | lf => exact Or.inl (congrArg _ hlf)
    | crlf => exact Or.inr ⟨trivial, String.ofList_append⟩
  · exact Or.inl (by rw [body_endedLine hreturn, body_endedLine hreturn])

/-- What a text has behind its last line feed, if it does not end with it. -/
theorem exists_open_line (h : ¬IsLineStart s) :
    ∃ front last, s = front ++ last ∧ IsLineStart front ∧ '\n' ∉ last.toList ∧ last ≠ "" := by
  let p : Char → Bool := fun c => c != '\n'
  have hparts : s = String.ofList (s.toList.rdropWhile p) ++ String.ofList (s.toList.rtakeWhile p) := by
    rw [← String.ofList_append, List.rdropWhile_append_rtakeWhile, String.ofList_toList]
  have hfront : IsLineStart (String.ofList (s.toList.rdropWhile p)) := by
    by_cases hnil : s.toList.rdropWhile p = []
    · exact Or.inl (congrArg String.ofList hnil)
    · have hlast := List.rdropWhile_last_not p s.toList hnil
      rw [bne_iff_ne, not_not] at hlast
      rw [IsLineStart, String.toList_ofList, List.getLast?_eq_some_getLast hnil, hlast]
      exact Or.inr rfl
  have hfeed : '\n' ∉ (String.ofList (s.toList.rtakeWhile p)).toList := by
    rw [String.toList_ofList]
    exact fun hmem => absurd (List.mem_rtakeWhile_imp hmem) (by decide)
  refine ⟨_, _, hparts, hfront, hfeed, fun hempty => h ?_⟩
  rw [hparts, hempty, String.append_empty]
  exact hfront

/-- **A line feed takes no more from a text** than a carriage return at the end of its last line. -/
theorem forall₂_bodies_endLine (e : Ending) (s : String) :
    List.Forall₂ (MayReturn True) (bodies (endLine .lf s)) (bodies (endLine e s)) := by
  by_cases hs : IsLineStart s
  · rw [endLine_of_isLineStart hs, endLine_of_isLineStart hs]
    exact forall₂_mayReturn_refl True _
  · obtain ⟨front, last, rfl, hfront, hfeed, hne⟩ := exists_open_line hs
    rw [endLine_of_not hs, endLine_of_not hs, String.append_assoc, String.append_assoc,
      bodies_append hfront, bodies_append hfront, bodies_ending hfeed hne, bodies_ending hfeed hne]
    exact List.rel_append (forall₂_mayReturn_refl True _) (.cons (mayReturn_endedLine e) .nil)

/-- A line may be shorter in front of the first terminator than in front of the second: the first
is a line feed, and `p` holds. -/
def Ending.MayShorten (p : Prop) (e e' : Ending) : Prop := e = e' ∨ e = .lf ∧ p

theorem Ending.MayShorten.orElse {p : Prop} {ending after after' : Ending}
    (h : ending = .none → after.MayShorten p after') :
    (ending.orElse after).MayShorten p (ending.orElse after') := by
  cases ending with
  | none => exact h rfl
  | lf => exact Or.inl rfl
  | crlf => exact Or.inl rfl

/-- The lines of a text that ends with a terminator, or else waits for either of two. -/
theorem forall₂_bodies_ending {p : Prop} {ending after after' : Ending} (s : String)
    (h : ending = .none → after.MayShorten p after') :
    List.Forall₂ (MayReturn p) (bodies (endLine after (s ++ ending.text)))
      (bodies (endLine after' (s ++ ending.text))) := by
  by_cases hending : ending = .none
  · obtain rfl | ⟨rfl, hp⟩ := h hending
    · exact forall₂_mayReturn_refl p _
    · exact (forall₂_bodies_endLine after' _).imp fun line line' hline =>
        hline.imp_right fun hreturn => ⟨hp, hreturn.2⟩
  · have hstart := isLineStart_of_ending s hending
    rw [endLine_of_isLineStart hstart, endLine_of_isLineStart hstart]
    exact forall₂_mayReturn_refl p _

/-! ### The lines of a file -/

theorem ending_ne_none_of_mem_dropLast_splitFrom (begun cs : List Char) :
    ∀ l ∈ (splitFrom begun cs).dropLast, l.ending ≠ .none := by
  induction cs generalizing begun with
  | nil =>
    unfold splitFrom
    split <;> exact List.forall_mem_nil _
  | cons c cs ih =>
    unfold splitFrom
    split
    · intro l hl
      have hclosed : (closeLine begun).ending ≠ .none := by
        unfold closeLine
        split <;> rintro ⟨⟩
      cases hrest : splitFrom [] cs with
      | nil =>
        rw [hrest] at hl
        exact absurd hl List.not_mem_nil
      | cons next rest =>
        rw [hrest, List.dropLast_cons_cons, List.mem_cons] at hl
        obtain rfl | hl := hl
        · exact hclosed
        · exact ih [] l (hrest ▸ hl)
    · exact ih _

/-- Only the last line of a text can lack a terminator. -/
theorem ending_ne_none_of_mem_dropLast {s : String} {l : Line} (h : l ∈ (split s).dropLast) :
    l.ending ≠ .none := ending_ne_none_of_mem_dropLast_splitFrom [] s.toList l h

theorem newline_notMem_body_of_mem_splitFrom {begun cs : List Char} (h : '\n' ∉ begun) :
    ∀ l ∈ splitFrom begun cs, '\n' ∉ l.body := by
  induction cs generalizing begun with
  | nil =>
    unfold splitFrom
    split
    · exact List.forall_mem_nil _
    · exact List.forall_mem_singleton.mpr (by simpa using h)
  | cons c cs ih =>
    unfold splitFrom
    split
    · refine List.forall_mem_cons.mpr ⟨?_, ih List.not_mem_nil⟩
      unfold closeLine
      split
      · simpa using h
      · simpa using h
    · next hc => exact ih (List.not_mem_cons_of_ne_of_not_mem (Ne.symm hc) h)

theorem newline_notMem_body {s : String} {l : Line} (h : l ∈ split s) : '\n' ∉ l.body :=
  newline_notMem_body_of_mem_splitFrom List.not_mem_nil l h

/-! ### Indentation -/

/-- The text is blanks that a line may start with. -/
def IsIndentation (s : String) : Prop := ∀ c ∈ s.toList, isBlank c = true ∧ c ≠ '\n'

theorem isIndentation_empty : IsIndentation "" := List.forall_mem_nil _

theorem IsIndentation.append {s t : String} (hs : IsIndentation s) (ht : IsIndentation t) :
    IsIndentation (s ++ t) := by
  rw [IsIndentation, String.toList_append]
  exact List.forall_mem_append.mpr ⟨hs, ht⟩

theorem isIndentation_leadingBlanks {line : List Char} (h : '\n' ∉ line) :
    IsIndentation (String.ofList (leadingBlanks line)) := by
  intro c hc
  rw [String.toList_ofList] at hc
  have hmem : c ∈ line := (List.takeWhile_sublist isBlank).mem hc
  exact ⟨List.mem_takeWhile_imp hc, fun hfeed => h (hfeed ▸ hmem)⟩

end Text

/-! ### Directives in an output -/

namespace Preprocessor

open Shading (Directive Condition)

/-- What a line of an output is to the preprocessor, whatever blanks it starts with. -/
def outputRole (line : String) : Role (List (List Char)) :=
  lineRole (String.ofList (line.toList.dropWhile Text.isBlank))

/-- **A directive in an output** is read as what it was written for, however it is indented. -/
theorem outputRole_directive {indent : String} (h : Text.IsIndentation indent) (d : Directive) :
    outputRole (indent ++ d.text) = (directiveRole d).map fun c => words c.text.toList := by
  have hsign : d.text.toList.dropWhile Text.isBlank = d.text.toList := by
    have hblank : Text.isBlank '#' = false := by decide
    cases d <;> simp [Directive.text, hblank]
  rw [outputRole, String.toList_append, List.dropWhile_append_of_pos fun c hc => (h c hc).1, hsign,
    String.ofList_toList, ← lineRole_directive 0, Writer.lineBody_zero]

end Preprocessor
end MaterialShader
