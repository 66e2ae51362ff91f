import MaterialShader.Proofs.OutputLine

/-!
# Lines that are put together to a text

Lines that a text was split into can be put together again.  Put together in another order, or
behind blanks, they are still lines that are read back one by one, as long as only the last one
lacks a terminator.

## Main definitions

* `Text.ofLines` — the text that lines are put together to.
* `Text.Line.IsSplit` — a line that a text can be split into.
* `Text.Line.indented` — a line behind blanks, unless it is empty.

## Main results

* `Text.split_ofLines` — lines that are put together are read back.
-/

namespace MaterialShader
namespace Text

/-! ### Lines that are put together -/

/-- The text that lines are put together to. -/
def ofLines (lines : List Line) : String := String.ofList (lines.flatMap Line.chars)

/-- A line that a text can be split into. -/
structure Line.IsSplit (l : Line) : Prop where
  feed : '\n' ∉ l.body
  lf : l.ending = .lf → l.body.getLast? ≠ some '\r'
  none : l.ending = .none → l.body ≠ []

variable {lines : List Line} {l : Line} {s indent : String}

/-- What holds of all but the last of some elements holds of all but the last of the later ones, and
of the first if it is not alone. -/
theorem forall_dropLast_cons {α : Type} {P : α → Prop} {a : α} {as : List α}
    (h : ∀ b ∈ (a :: as).dropLast, P b) : (as ≠ [] → P a) ∧ ∀ b ∈ as.dropLast, P b := by
  by_cases hne : as = []
  · subst hne
    exact ⟨fun hne => absurd rfl hne, List.forall_mem_nil _⟩
  · rw [List.dropLast_cons_of_ne_nil hne] at h
    obtain ⟨ha, has⟩ := List.forall_mem_cons.mp h
    exact ⟨fun _ => ha, has⟩

theorem isSplit_closeLine {begun : List Char} (h : '\n' ∉ begun) : (closeLine begun).IsSplit := by
  by_cases hreturn : begun.head? = some '\r'
  · obtain ⟨rest, rfl⟩ := List.head?_eq_some_iff.mp hreturn
    refine ⟨?_, by rintro ⟨⟩, by rintro ⟨⟩⟩
    simpa [closeLine] using fun hmem => h (List.mem_cons_of_mem _ hmem)
  · rw [closeLine_of_head? hreturn]
    refine ⟨by simpa using h, fun _ => ?_, by rintro ⟨⟩⟩
    rwa [List.getLast?_reverse]

theorem isSplit_of_mem_splitFrom {begun cs : List Char} (h : '\n' ∉ begun) :
    ∀ l ∈ splitFrom begun cs, l.IsSplit := by
  induction cs generalizing begun with
  | nil =>
    unfold splitFrom
    split
    · exact List.forall_mem_nil _
    · next hne =>
      refine List.forall_mem_singleton.mpr ⟨by simpa using h, by rintro ⟨⟩, fun _ => ?_⟩
      simpa using hne
  | cons c cs ih =>
    unfold splitFrom
    split
    · exact List.forall_mem_cons.mpr ⟨isSplit_closeLine h, ih List.not_mem_nil⟩
    · next hc => exact ih (List.not_mem_cons_of_ne_of_not_mem (Ne.symm hc) h)

theorem isSplit_of_mem_split (h : l ∈ split s) : l.IsSplit :=
  isSplit_of_mem_splitFrom List.not_mem_nil l h

/-- **Lines that are put together** are read back. -/
theorem split_ofLines (h : ∀ l ∈ lines, l.IsSplit)
    (hends : ∀ l ∈ lines.dropLast, l.ending ≠ .none) : split (ofLines lines) = lines := by
  rw [split, ofLines, String.toList_ofList]
  induction lines with
  | nil => rfl
  | cons l lines ih =>
    obtain ⟨hl, hlines⟩ := List.forall_mem_cons.mp h
    obtain ⟨body, ending⟩ := l
    rw [List.flatMap_cons, Line.chars]
    obtain ⟨hfirst, hlater⟩ := forall_dropLast_cons hends
    have hrest : splitFrom [] (lines.flatMap Line.chars) = lines := ih hlines hlater
    cases ending with
    | none =>
      -- only the last line can lack a terminator
      obtain rfl : lines = [] := by_contra fun hne => hfirst hne rfl
      have hbody : body ≠ [] := hl.none rfl
      simp [Ending.text, splitFrom_of_notMem hl.feed, hbody]
    | lf =>
      have hclose : closeLine (body.reverse ++ []) = ⟨body, .lf⟩ := by
        rw [List.append_nil, closeLine_of_head?, List.reverse_reverse]
        rw [List.head?_reverse]
        exact hl.lf rfl
      rw [show body ++ Ending.lf.text.toList ++ lines.flatMap Line.chars =
        body ++ '\n' :: lines.flatMap Line.chars by simp [Ending.text],
        splitFrom_append_newline hl.feed, hclose, hrest]
    | crlf =>
      have hfeed : '\n' ∉ body ++ ['\r'] := by simpa using hl.feed
      have hclose : closeLine ((body ++ ['\r']).reverse ++ []) = ⟨body, .crlf⟩ := by
        simp [closeLine]
      rw [show body ++ Ending.crlf.text.toList ++ lines.flatMap Line.chars =
        (body ++ ['\r']) ++ '\n' :: lines.flatMap Line.chars by simp [Ending.text],
        splitFrom_append_newline hfeed, hclose, hrest]

/-! ### Lines behind blanks -/

/-- A line behind blanks, unless it is empty. -/
def Line.indented (indent : String) (l : Line) : Line :=
  { l with body := if l.body.isEmpty then [] else indent.toList ++ l.body }

theorem Line.indented_of_nil (h : l.body = []) : l.indented indent = l := by
  obtain ⟨body, ending⟩ := l
  obtain rfl : body = [] := h
  rfl

theorem Line.body_indented (h : l.body ≠ []) :
    (l.indented indent).body = indent.toList ++ l.body := if_neg (by simpa using h)

theorem Line.indented_empty (l : Line) : l.indented "" = l := by
  by_cases h : l.body = []
  · exact indented_of_nil h
  · obtain ⟨body, ending⟩ := l
    simp [indented]

theorem Line.indented_indented (outer inner : String) (l : Line) :
    (l.indented inner).indented outer = l.indented (outer ++ inner) := by
  by_cases h : l.body = []
  · rw [indented_of_nil h, indented_of_nil h, indented_of_nil h]
  · simp [indented, h]

theorem Line.IsSplit.indented (h : l.IsSplit) (hindent : IsIndentation indent) :
    (l.indented indent).IsSplit := by
  by_cases hbody : l.body = []
  · rwa [Line.indented_of_nil hbody]
  · constructor
    · rw [Line.body_indented hbody, List.mem_append, not_or]
      exact ⟨fun hmem => (hindent _ hmem).2 rfl, h.feed⟩
    · rw [Line.body_indented hbody, List.getLast?_append_of_ne_nil _ hbody]
      exact h.lf
    · rw [Line.body_indented hbody]
      exact fun _ => List.append_ne_nil_of_right_ne_nil _ hbody

end Text
end MaterialShader
