import Mathlib.Data.List.TakeWhile
import MaterialShader.Pass.Struct
import MaterialShader.Proofs.DirectiveText

/-!
# Strings that begin no directive

A string of a document may stand where a line begins.  The line is a line of the text as long
as the first word of the string is no directive, since what follows the string only makes that
word longer.

## Main definitions

* `firstWord`, `directiveWords` — the word that tells what a line is.
* `IsPlain` — a string is one line and no directive.

## Main results

* `lineRole_append_blank`, `lineRole_append` — what a plain string begins is text.
* `IsPlain.resolvePrecision` — a plain type is plain with its precision filled in.
-/

namespace MaterialShader
namespace Preprocessor

/-- The first word of a line; a blank line has an empty one. -/
def firstWord (line : List Char) : List Char := (line.dropWhile (· == ' ')).takeWhile (· != ' ')

/-- The words that make a line a directive. -/
def directiveWords : List (List Char) :=
  ["#if".toList, "#elif".toList, "#else".toList, "#endif".toList]

/-- The first word of a line stands before the other ones. -/
theorem exists_words_eq (line : List Char) :
    ∃ later, words line = if firstWord line = [] then [] else firstWord line :: later := by
  have hblanks : line.takeWhile (· == ' ') =
      List.replicate (line.takeWhile (· == ' ')).length ' ' :=
    List.eq_replicate_of_mem fun b hb => by simpa using List.mem_takeWhile_imp hb
  -- the blanks in front make no word
  have hwords : words line = words (line.dropWhile (· == ' ')) := by
    conv_lhs => rw [← List.takeWhile_append_dropWhile (p := (· == ' ')) (l := line), hblanks]
    exact words_replicate_blank _ _
  have hfirst : ' ' ∉ firstWord line := fun hmem => by simpa using List.mem_takeWhile_imp hmem
  have hsplit : line.dropWhile (· == ' ') =
      firstWord line ++ (line.dropWhile (· == ' ')).dropWhile (· != ' ') :=
    List.takeWhile_append_dropWhile.symm
  by_cases hnil : firstWord line = []
  · refine ⟨[], ?_⟩
    rw [if_pos hnil, hwords]
    cases hrest : line.dropWhile (· == ' ') with
    | nil => rfl
    | cons c rest =>
      have hc : (c == ' ') = false := by
        have := List.head?_dropWhile_not (· == ' ') line
        rwa [hrest] at this
      rw [firstWord, hrest, List.takeWhile_cons, if_pos (by simpa using hc)] at hnil
      exact absurd hnil (List.cons_ne_nil _ _)
  · simp only [if_neg hnil]
    rw [hwords, hsplit]
    cases hrest : (line.dropWhile (· == ' ')).dropWhile (· != ' ') with
    | nil => exact ⟨[], by rw [List.append_nil, words_of_notMem hfirst hnil]⟩
    | cons c rest =>
      obtain rfl : c = ' ' := by
        have := List.head?_dropWhile_not (· != ' ') (line.dropWhile (· == ' '))
        rw [hrest] at this
        simpa using this
      exact ⟨words rest, by rw [words_append_blank, words_of_notMem hfirst hnil]; rfl⟩

theorem lineRole_eq_text_iff {s : String} :
    lineRole s = .text ↔ firstWord s.toList ∉ directiveWords := by
  obtain ⟨later, hwords⟩ := exists_words_eq s.toList
  rw [lineRole, hwords]
  split
  · next hnil =>
    rw [hnil]
    exact iff_of_true rfl (by decide)
  · simp only [wordsRole, directiveWords, List.mem_cons, List.not_mem_nil, or_false, not_or]
    split_ifs <;> simp_all

/-- A string that may stand where a line begins: it is one line and no directive. -/
def IsPlain (s : String) : Prop := Text.IsOneLine s ∧ lineRole s = .text

/-- Only the first word has to be read. -/
instance (s : String) : Decidable (IsPlain s) :=
  decidable_of_iff (Text.IsOneLine s ∧ firstWord s.toList ∉ directiveWords)
    (and_congr_right' lineRole_eq_text_iff.symm)

/-- A line that starts with no blank and no number sign is plain. -/
theorem isPlain_of_head {line : String} {first : Char} (honeLine : Text.IsOneLine line)
    (hline : line.toList.head? = some first) (hblank : first ≠ ' ') (hsign : first ≠ '#') :
    IsPlain line :=
  ⟨honeLine, by simpa only [Writer.lineBody_zero] using lineRole_eq_text 0 hline hblank hsign⟩

theorem wordsRole_append {ws later : List (List Char)} (hws : wordsRole ws = .text)
    (hlater : wordsRole later = .text) : wordsRole (ws ++ later) = .text := by
  cases ws with
  | nil => exact hlater
  | cons w ws =>
    -- whether a line is text hangs on its first word alone
    rw [List.cons_append, wordsRole]
    rw [wordsRole] at hws
    split_ifs at hws ⊢
    rfl

/-- Strings that begin no directive begin none with a blank between them. -/
theorem lineRole_append_blank {line a b : String} (hline : line.toList = a.toList ++ ' ' :: b.toList)
    (ha : lineRole a = .text) (hb : lineRole b = .text) : lineRole line = .text := by
  rw [lineRole, hline, words_append_blank]
  exact wordsRole_append ha hb

/-- A plain string begins no directive before a character that no directive has. -/
theorem lineRole_append {a b : String} {c : Char} (ha : lineRole a = .text)
    (hb : b.toList.head? = some c) (hblank : c ≠ ' ') (hc : ∀ w ∈ directiveWords, c ∉ w) :
    lineRole (a ++ b) = .text := by
  obtain ⟨rest, hrest⟩ := List.head?_eq_some_iff.mp hb
  rw [lineRole_eq_text_iff, String.toList_append, hrest]
  rw [lineRole_eq_text_iff] at ha
  have hcharTake : (c :: rest).takeWhile (· != ' ') = c :: rest.takeWhile (· != ' ') :=
    List.takeWhile_cons_of_pos (by simpa using hblank)
  -- the first word is that of the string, or the character belongs to it
  have hfirst : firstWord (a.toList ++ c :: rest) = firstWord a.toList ∨
      c ∈ firstWord (a.toList ++ c :: rest) := by
    unfold firstWord
    rw [List.dropWhile_append]
    split
    · right
      rw [List.dropWhile_cons_of_neg (by simpa using hblank), hcharTake]
      exact List.mem_cons_self
    · rw [List.takeWhile_append]
      split
      · right
        rw [hcharTake]
        exact List.mem_append_right _ List.mem_cons_self
      · exact Or.inl rfl
  rcases hfirst with hfirst | hmem
  · rwa [hfirst]
  · exact fun hword => hc _ hword hmem

/-! ### Types with their precision -/

/-- Filling in a precision changes no word that is left without an `o`. -/
theorem takeWhile_resolvePrecisionChars (cs : List Char)
    (h : 'o' ∉ (resolvePrecisionChars cs).takeWhile (· != ' ')) :
    (resolvePrecisionChars cs).takeWhile (· != ' ') = cs.takeWhile (· != ' ') := by
  induction cs using resolvePrecisionChars.induct with
  | case1 rest ih => simp [resolvePrecisionChars] at h
  | case2 c rest hno ih =>
    have hcons : resolvePrecisionChars (c :: rest) = c :: resolvePrecisionChars rest :=
      resolvePrecisionChars.eq_2 c rest hno
    rw [hcons, List.takeWhile_cons] at h ⊢
    rw [List.takeWhile_cons]
    split_ifs at h ⊢
    · rw [List.mem_cons, not_or] at h
      rw [ih h.2]
    · rfl
  | case3 => rfl

theorem firstWord_resolvePrecisionChars (cs : List Char)
    (h : 'o' ∉ firstWord (resolvePrecisionChars cs)) :
    firstWord (resolvePrecisionChars cs) = firstWord cs := by
  unfold firstWord at h ⊢
  induction cs using resolvePrecisionChars.induct with
  | case1 rest ih => simp [resolvePrecisionChars] at h
  | case2 c rest hno ih =>
    have hcons : resolvePrecisionChars (c :: rest) = c :: resolvePrecisionChars rest :=
      resolvePrecisionChars.eq_2 c rest hno
    by_cases hblank : c = ' '
    · rw [hcons, List.dropWhile_cons_of_pos (by simpa using hblank)] at h ⊢
      rw [List.dropWhile_cons_of_pos (by simpa using hblank)]
      exact ih h
    · have hdrop : ∀ l : List Char, (c :: l).dropWhile (· == ' ') = c :: l := fun l =>
        List.dropWhile_cons_of_neg (by simpa using hblank)
      rw [hcons, hdrop, ← hcons] at h ⊢
      rw [hdrop]
      exact takeWhile_resolvePrecisionChars _ h
  | case3 => rfl

/-- A type that begins no directive begins none with its precision. -/
theorem lineRole_resolvePrecision {type : String} (h : lineRole type = .text) :
    lineRole (resolvePrecision type) = .text := by
  rw [lineRole_eq_text_iff] at h ⊢
  rw [resolvePrecision, String.toList_ofList]
  intro hmem
  have hletters : ∀ w ∈ directiveWords, 'o' ∉ w := by decide
  rw [firstWord_resolvePrecisionChars _ (hletters _ hmem)] at hmem
  exact h hmem

theorem mem_resolvePrecisionChars {c : Char} (cs : List Char)
    (h : c ∈ resolvePrecisionChars cs) : c ∈ cs ∨ c ∈ "float".toList := by
  induction cs using resolvePrecisionChars.induct with
  | case1 rest ih =>
    rcases List.mem_append.mp h with h | h
    · exact Or.inr h
    · refine (ih h).imp_left fun hmem => ?_
      simp [hmem]
  | case2 c' rest hno ih =>
    rw [resolvePrecisionChars.eq_2 c' rest hno] at h
    rcases List.mem_cons.mp h with rfl | h
    · exact Or.inl List.mem_cons_self
    · exact (ih h).imp_left (List.mem_cons_of_mem c')
  | case3 => exact absurd h List.not_mem_nil

theorem isOneLine_resolvePrecision {type : String} (h : Text.IsOneLine type) :
    Text.IsOneLine (resolvePrecision type) := by
  have hmem : ∀ c ∈ (resolvePrecision type).toList, c ∈ type.toList ∨ c ∈ "float".toList := by
    rw [resolvePrecision, String.toList_ofList]
    exact fun c => mem_resolvePrecisionChars _
  constructor
  · exact fun hfeed => (hmem _ hfeed).elim h.1 (by decide)
  · exact fun hreturn => (hmem _ hreturn).elim h.2 (by decide)

/-- **A plain string** stays plain with its precision filled in. -/
theorem IsPlain.resolvePrecision {type : String} (h : IsPlain type) :
    IsPlain (resolvePrecision type) :=
  ⟨isOneLine_resolvePrecision h.1, lineRole_resolvePrecision h.2⟩

end Preprocessor
end MaterialShader
