import Mathlib.Data.List.Basic
import MaterialShader.Proofs.Preprocessor
import MaterialShader.Proofs.WrittenLine
import MaterialShader.Text.Identifier

/-!
# Directives as text

The generator holds conditions as trees and writes them as text; a preprocessor has only the
text.  Here the text is read back: a line is cut into words, the first word tells its role, and
the words of a condition are alternatives of tests that have to hold together.

Only what the generator writes has to be understood, which is `defined(A)`, its negation, and
these joined by `&&` and `||`.  A condition of any other form has no value.

## Main definitions

* `Text.isIdentifier` — the names that preprocessor symbols may have.
* `words`, `lineRole` — the words of a line, and its role.
* `alternatives?`, `conditionAlternatives?` — a condition as alternatives of tests, read from
  its words and taken from its tree.
* `wordsValue`, `conditionValue` — the value of a condition, as far as symbols are known.
* `preprocess` — what is left of the lines of a text.

## Main results

* `alternatives?_words_text` — reading the text of a condition gives the condition back.
* `lineRole_directive` — a directive is read as what it was written for.
* `conditionValue_eq_holds`, `conditionValue_eq_none` — the value of a condition whose symbols
  are known, and of one with a symbol that is not.
-/

namespace MaterialShader

/-! ### Identifiers -/

namespace Text

/-- An identifier of the preprocessor: identifier characters, and no digit in front. -/
def isIdentifier (s : String) : Bool :=
  s.toList.all isIdentChar && (s.toList.head?.any fun c => !c.isDigit)

theorem isIdentifier_iff {s : String} :
    isIdentifier s = true ↔
      (∀ c ∈ s.toList, isIdentChar c = true) ∧
        ∃ c, s.toList.head? = some c ∧ ¬c.isDigit = true := by
  rw [isIdentifier, Bool.and_eq_true, List.all_eq_true, Option.any_eq_true]
  simp

theorem blank_notMem_of_isIdentifier {s : String} (h : isIdentifier s = true) :
    ' ' ∉ s.toList := by
  intro hmem
  have := (isIdentifier_iff.mp h).1 _ hmem
  exact absurd this (by decide)

theorem isOneLine_of_isIdentifier {s : String} (h : isIdentifier s = true) : IsOneLine s := by
  obtain ⟨hchars, -⟩ := isIdentifier_iff.mp h
  exact ⟨fun hmem => absurd (hchars _ hmem) (by decide),
    fun hmem => absurd (hchars _ hmem) (by decide)⟩

/-- Names that end in a number differ if their numbers do. -/
theorem numbered_injective (stem : String) :
    Function.Injective fun number : Nat => stem ++ toString number := by
  intro i j h
  have hdigits : Nat.toDigits 10 i = Nat.toDigits 10 j := by
    have hchars : (stem ++ toString i).toList = (stem ++ toString j).toList :=
      congrArg String.toList h
    rw [String.toList_append, String.toList_append, Nat.toString_eq_ofList_toDigits,
      Nat.toString_eq_ofList_toDigits, String.toList_ofList, String.toList_ofList] at hchars
    exact List.append_cancel_left hchars
  -- the digits are read back as the number
  have hvalue := congrArg (fun digits => Nat.ofDigitChars 10 digits 0) hdigits
  simpa only [Nat.ofDigitChars_ten_toDigits] using hvalue

end Text

namespace Preprocessor

open Shading (Test Condition Directive)

/-! ### Words -/

/-- The words of a line, which blanks stand between. -/
def words (line : List Char) : List (List Char) := (line.splitOn ' ').filter (· ≠ [])

theorem words_append_blank (a b : List Char) : words (a ++ ' ' :: b) = words a ++ words b := by
  rw [words, List.splitOn_append_cons_self, List.filter_append]
  rfl

theorem words_of_notMem {w : List Char} (hblank : ' ' ∉ w) (hne : w ≠ []) : words w = [w] := by
  rw [words, List.splitOn_eq_singleton hblank]
  simp [hne]

theorem words_replicate_blank (n : Nat) (line : List Char) :
    words (List.replicate n ' ' ++ line) = words line := by
  induction n with
  | zero => rfl
  | succ n ih => rw [List.replicate_succ, List.cons_append, ← List.nil_append (' ' :: _),
      words_append_blank, ih]; rfl

/-- Words that an operator stands between, blanks around it. -/
theorem words_intercalate {op : String} {ts : List String} (hop : ' ' ∉ op.toList)
    (hne : op.toList ≠ []) (hts : ∀ t ∈ ts, ' ' ∉ t.toList ∧ t.toList ≠ []) :
    words ((" " ++ op ++ " ").intercalate ts).toList =
      [op.toList].intercalate (ts.map fun t => [t.toList]) := by
  induction ts with
  | nil => rfl
  | cons t rest ih =>
    obtain ⟨ht, hrest⟩ := List.forall_mem_cons.mp hts
    cases rest with
    | nil => simpa using words_of_notMem ht.1 ht.2
    | cons u rest =>
      rw [String.intercalate_cons_cons]
      -- the blanks around the operator cut it off from the words beside it
      have hsplit : (t ++ (" " ++ op ++ " ") ++ (" " ++ op ++ " ").intercalate (u :: rest)).toList =
          t.toList ++ ' ' :: (op.toList ++ ' ' ::
            ((" " ++ op ++ " ").intercalate (u :: rest)).toList) := by
        simp
      rw [hsplit, words_append_blank, words_append_blank, words_of_notMem ht.1 ht.2,
        words_of_notMem hop hne, ih hrest]
      simp

/-! ### Tests -/

/-- The symbol of a word of the form `defined(A)`. -/
def definedSymbol? (w : List Char) : Option String :=
  let symbol := (w.drop 8).dropLast
  if w = "defined(".toList ++ symbol ++ [')'] ∧ Text.isIdentifier (String.ofList symbol) = true then
    some (String.ofList symbol)
  else none

/-- The test that a word stands for. -/
def testOfWord? (w : List Char) : Option Test :=
  if w.head? = some '!' then (definedSymbol? w.tail).map Test.undefined
  else (definedSymbol? w).map Test.defined

theorem definedSymbol?_text {s : String} (h : Text.isIdentifier s = true) :
    definedSymbol? ("defined(" ++ s ++ ")").toList = some s := by
  have hsymbol : (("defined(" ++ s ++ ")").toList.drop 8).dropLast = s.toList := by
    simp
  rw [definedSymbol?]
  simp only [hsymbol, String.ofList_toList]
  rw [if_pos ⟨by simp, h⟩]

/-- Reading the text of a test gives the test back. -/
theorem testOfWord?_text {t : Test} (h : Text.isIdentifier t.symbol = true) :
    testOfWord? t.text.toList = some t := by
  obtain ⟨symbol, isDefined⟩ := t
  have hread := definedSymbol?_text h
  cases isDefined with
  | true =>
    have htext : (Test.text ⟨symbol, true⟩) = "defined(" ++ symbol ++ ")" := rfl
    have hhead : ("defined(" ++ symbol ++ ")").toList.head? = some 'd' := by simp
    rw [testOfWord?, htext, hhead, if_neg (by decide), hread]
    rfl
  | false =>
    have htext : (Test.text ⟨symbol, false⟩).toList =
        '!' :: ("defined(" ++ symbol ++ ")").toList := by simp [Test.text]
    rw [testOfWord?, htext, List.head?_cons, if_pos rfl, List.tail_cons, hread]
    rfl

theorem blank_notMem_text {t : Test} (h : Text.isIdentifier t.symbol = true) :
    ' ' ∉ t.text.toList := by
  have hsymbol := Text.blank_notMem_of_isIdentifier h
  cases hdefined : t.isDefined <;> simp [Test.text, hdefined, hsymbol]

theorem text_toList_ne_nil (t : Test) : t.text.toList ≠ [] := by
  cases hdefined : t.isDefined <;> simp [Test.text, hdefined]

/-! ### Conditions -/

/-- The word between alternatives. -/
def orWord : List Char := "||".toList

/-- The word between tests that have to hold together. -/
def andWord : List Char := "&&".toList

/-- The test that a list of words stands for, which has to be a single word. -/
def testOfWords? : List (List Char) → Option Test
  | [w] => testOfWord? w
  | _ => none

/-- The condition that some words stand for: alternatives, each of tests that have to hold
together. -/
def alternatives? (condition : List (List Char)) : Option (List (List Test)) :=
  (condition.splitOn orWord).mapM fun words => (words.splitOn andWord).mapM testOfWords?

/-- A condition as alternatives of tests; one that is only a text has none. -/
def conditionAlternatives? : Condition → Option (List (List Test))
  | .all tests => some [tests]
  | .any tests => some (tests.map ([·]))
  | .verbatim _ => none

/-- The tests of a condition. -/
def conditionTests : Condition → List Test
  | .all tests => tests
  | .any tests => tests
  | .verbatim _ => []

/-- The tests of a condition can be read back: there is one, and the symbols are
identifiers. -/
def IsReadable (c : Condition) : Prop :=
  conditionTests c ≠ [] ∧ ∀ t ∈ conditionTests c, Text.isIdentifier t.symbol = true

theorem mapM_eq_some_map {α β γ : Type} {f : β → Option γ} {g : α → β} {h : α → γ} {l : List α}
    (hf : ∀ a ∈ l, f (g a) = some (h a)) : (l.map g).mapM f = some (l.map h) := by
  induction l with
  | nil => rfl
  | cons a l ih =>
    obtain ⟨ha, hl⟩ := List.forall_mem_cons.mp hf
    rw [List.map_cons, List.mapM_cons, ha, ih hl]
    rfl

theorem words_text_intercalate (op : String) {ts : List Test} (hop : ' ' ∉ op.toList)
    (hne : op.toList ≠ []) (hts : ∀ t ∈ ts, Text.isIdentifier t.symbol = true) :
    words ((" " ++ op ++ " ").intercalate (ts.map Test.text)).toList =
      [op.toList].intercalate (ts.map fun t => [t.text.toList]) := by
  rw [words_intercalate hop hne, List.map_map]
  · rfl
  · intro text htext
    obtain ⟨t, ht, rfl⟩ := List.mem_map.mp htext
    exact ⟨blank_notMem_text (hts t ht), text_toList_ne_nil t⟩

/-- A test is never written like an operator. -/
theorem text_ne_operator {t : Test} (h : Text.isIdentifier t.symbol = true) :
    t.text.toList ≠ orWord ∧ t.text.toList ≠ andWord := by
  constructor
  · intro heq
    have := testOfWord?_text h
    rw [heq, show testOfWord? orWord = none by decide] at this
    exact absurd this (by simp)
  · intro heq
    have := testOfWord?_text h
    rw [heq, show testOfWord? andWord = none by decide] at this
    exact absurd this (by simp)

theorem notMem_intercalate {α : Type} {x : α} {separator : List α} {ls : List (List α)}
    (hseparator : x ∉ separator) (hls : ∀ l ∈ ls, x ∉ l) : x ∉ separator.intercalate ls := by
  induction ls with
  | nil => simp
  | cons l rest ih =>
    obtain ⟨hl, hrest⟩ := List.forall_mem_cons.mp hls
    cases rest with
    | nil => simpa using hl
    | cons m rest =>
      rw [List.intercalate_cons_cons, List.mem_append, List.mem_append]
      rintro ((h | h) | h)
      · exact hl h
      · exact hseparator h
      · exact ih hrest h

/-- **Reading the text of a condition gives the condition back.** -/
theorem alternatives?_words_text {c : Condition} (h : IsReadable c) :
    alternatives? (words c.text.toList) = conditionAlternatives? c := by
  have htests : ∀ t : Test, Text.isIdentifier t.symbol = true →
      testOfWords? [t.text.toList] = some t := fun t ht => testOfWord?_text ht
  cases c with
  | all ts =>
    obtain ⟨hne, hts⟩ : ts ≠ [] ∧ ∀ t ∈ ts, Text.isIdentifier t.symbol = true := h
    have hwords := words_text_intercalate "&&" (by decide) (by decide) hts
    change words (Condition.all ts).text.toList = [andWord].intercalate _ at hwords
    -- there is one alternative, since no word of it stands between alternatives
    have hor : orWord ∉ [andWord].intercalate (ts.map fun t => [t.text.toList]) := by
      refine notMem_intercalate (by decide) fun l hl => ?_
      obtain ⟨t, ht, rfl⟩ := List.mem_map.mp hl
      rw [List.mem_singleton]
      exact (text_ne_operator (hts t ht)).1.symm
    rw [alternatives?, hwords, List.splitOn_eq_singleton hor, List.mapM_cons,
      List.splitOn_intercalate]
    · rw [mapM_eq_some_map (h := id) fun t ht => htests t (hts t ht), List.map_id]
      rfl
    · intro l hl
      obtain ⟨t, ht, rfl⟩ := List.mem_map.mp hl
      rw [List.mem_singleton]
      exact (text_ne_operator (hts t ht)).2.symm
    · simpa using hne
  | any ts =>
    obtain ⟨hne, hts⟩ : ts ≠ [] ∧ ∀ t ∈ ts, Text.isIdentifier t.symbol = true := h
    have hwords := words_text_intercalate "||" (by decide) (by decide) hts
    change words (Condition.any ts).text.toList = [orWord].intercalate _ at hwords
    rw [alternatives?, hwords, List.splitOn_intercalate]
    · refine mapM_eq_some_map fun t ht => ?_
      rw [List.splitOn_eq_singleton, List.mapM_cons, htests t (hts t ht)]
      · rfl
      · rw [List.mem_singleton]
        exact (text_ne_operator (hts t ht)).2.symm
    · intro l hl
      obtain ⟨t, ht, rfl⟩ := List.mem_map.mp hl
      rw [List.mem_singleton]
      exact (text_ne_operator (hts t ht)).1.symm
    · simpa using hne
  | verbatim text => exact absurd rfl h.1

theorem isOneLine_text {t : Test} (h : Text.isIdentifier t.symbol = true) :
    Text.IsOneLine t.text := by
  have hsymbol := Text.isOneLine_of_isIdentifier h
  rw [Test.text, Text.isOneLine_append, Text.isOneLine_append]
  refine ⟨⟨?_, hsymbol⟩, by decide⟩
  cases t.isDefined <;> decide

theorem isOneLine_condition {c : Condition} (h : IsReadable c) : Text.IsOneLine c.text := by
  have htests : ∀ text ∈ (conditionTests c).map Test.text, Text.IsOneLine text := by
    intro text htext
    obtain ⟨t, ht, rfl⟩ := List.mem_map.mp htext
    exact isOneLine_text (h.2 t ht)
  cases c with
  | all ts => exact Text.isOneLine_intercalate (by decide) htests
  | any ts => exact Text.isOneLine_intercalate (by decide) htests
  | verbatim text => exact absurd rfl h.1

/-! ### The value of a condition -/

/-- The value of alternatives, which they have if all their symbols are known to be defined
or not. -/
def valueOf (known : String → Option Bool) (alternatives : List (List Test)) : Option Bool :=
  if alternatives.all (·.all fun t => (known t.symbol).isSome) then
    some (alternatives.any (·.all fun t => known t.symbol == some t.isDefined))
  else none

/-- The value of a condition that is held as words. -/
def wordsValue (known : String → Option Bool) (condition : List (List Char)) : Option Bool :=
  (alternatives? condition).bind (valueOf known)

/-- The value of a condition that is held as a tree. -/
def conditionValue (known : String → Option Bool) (c : Condition) : Option Bool :=
  (conditionAlternatives? c).bind (valueOf known)

variable {known : String → Option Bool} {defined : String → Bool} {c : Condition}

theorem wordsValue_words_text (h : IsReadable c) :
    wordsValue known (words c.text.toList) = conditionValue known c := by
  rw [wordsValue, alternatives?_words_text h]
  rfl

theorem valueOf_of_known {alternatives : List (List Test)}
    (h : ∀ ts ∈ alternatives, ∀ t ∈ ts, known t.symbol = some (defined t.symbol)) :
    valueOf known alternatives = some (alternatives.any (·.all (·.holds defined))) := by
  have hknown : alternatives.all (·.all fun t => (known t.symbol).isSome) = true := by
    simp only [List.all_eq_true]
    intro ts hts t ht
    rw [h ts hts t ht]
    rfl
  rw [valueOf, if_pos hknown, Option.some_inj, Bool.eq_iff_iff, List.any_eq_true, List.any_eq_true]
  refine exists_congr fun ts => and_congr_right fun hts => ?_
  rw [List.all_eq_true, List.all_eq_true]
  refine forall₂_congr fun t ht => ?_
  rw [h ts hts t ht]
  rfl

theorem valueOf_of_unknown {alternatives : List (List Test)} {ts : List Test} {t : Test}
    (hts : ts ∈ alternatives) (ht : t ∈ ts) (h : known t.symbol = none) :
    valueOf known alternatives = none := by
  rw [valueOf, if_neg]
  simp only [List.all_eq_true]
  intro hknown
  have := hknown ts hts t ht
  rw [h] at this
  exact absurd this (by decide)

/-- Where everything is known of the symbols of a condition, its value is whether it holds. -/
theorem conditionValue_eq_holds (hne : conditionTests c ≠ [])
    (h : ∀ t ∈ conditionTests c, known t.symbol = some (defined t.symbol)) :
    conditionValue known c = some (c.holds defined) := by
  cases c with
  | all ts =>
    have hknown : ∀ us ∈ [ts], ∀ t ∈ us, known t.symbol = some (defined t.symbol) :=
      List.forall_mem_singleton.mpr h
    have hvalue := valueOf_of_known hknown
    rw [conditionValue, conditionAlternatives?, Option.bind_some, hvalue]
    simp [Condition.holds]
  | any ts =>
    have hknown : ∀ us ∈ ts.map ([·]), ∀ t ∈ us, known t.symbol = some (defined t.symbol) := by
      simpa [conditionTests] using h
    have hvalue := valueOf_of_known hknown
    rw [conditionValue, conditionAlternatives?, Option.bind_some, hvalue]
    simp [Condition.holds, List.any_map, Function.comp_def]
  | verbatim text => exact absurd rfl hne

theorem conditionValue_of_test (defined : String → Bool) (t : Test) :
    conditionValue (fun s => some (defined s)) (.all [t]) = some (t.holds defined) := by
  have hne : conditionTests (.all [t]) ≠ [] := List.cons_ne_nil t []
  rw [conditionValue_eq_holds hne fun _ _ => rfl]
  simp [Condition.holds]

/-- A condition with a symbol that nothing is known of has no value. -/
theorem conditionValue_eq_none {t : Test} (ht : t ∈ conditionTests c)
    (h : known t.symbol = none) : conditionValue known c = none := by
  cases c with
  | all ts => exact valueOf_of_unknown (List.mem_singleton.mpr rfl) ht h
  | any ts =>
    exact valueOf_of_unknown (List.mem_map.mpr ⟨t, ht, rfl⟩) (List.mem_singleton.mpr rfl) h
  | verbatim text => exact absurd ht List.not_mem_nil

/-! ### Roles -/

/-- What a directive is to the preprocessor. -/
def directiveRole : Directive → Role Condition
  | .ifTrue c => .opens c
  | .elseIf c => .continues c
  | .otherwise => .otherwise
  | .endIf => .closes

/-- The role that some words have, by the first of them. -/
def wordsRole : List (List Char) → Role (List (List Char))
  | [] => .text
  | first :: rest =>
      if first = "#if".toList then .opens rest
      else if first = "#elif".toList then .continues rest
      else if first = "#else".toList then .otherwise
      else if first = "#endif".toList then .closes
      else .text

/-- What a line is to the preprocessor. -/
def lineRole (line : String) : Role (List (List Char)) := wordsRole (words line.toList)

theorem words_lineBody {depth : Nat} {line : String} :
    words (Writer.lineBody depth line).toList = words line.toList := by
  unfold Writer.lineBody
  split
  · next h => rw [String.isEmpty_iff.mp h]
  · rw [String.toList_append, Writer.toList_indentation, words_replicate_blank]

/-- **A directive is read as what it was written for**, however deep it stands. -/
theorem lineRole_directive (depth : Nat) (d : Directive) :
    lineRole (Writer.lineBody depth d.text) =
      (directiveRole d).map fun c => words c.text.toList := by
  rw [lineRole, words_lineBody]
  cases d with
  | ifTrue c =>
    have htext : (Directive.ifTrue c).text.toList = "#if".toList ++ ' ' :: c.text.toList := by
      simp [Directive.text]
    rw [htext, words_append_blank, words_of_notMem (by decide) (by decide)]
    rfl
  | elseIf c =>
    have htext : (Directive.elseIf c).text.toList = "#elif".toList ++ ' ' :: c.text.toList := by
      simp [Directive.text]
    rw [htext, words_append_blank, words_of_notMem (by decide) (by decide)]
    rfl
  | otherwise => exact congrArg wordsRole (words_of_notMem (by decide) (by decide))
  | endIf => exact congrArg wordsRole (words_of_notMem (by decide) (by decide))

theorem words_cons_of_ne {first : Char} (rest : List Char) (h : first ≠ ' ') :
    ∃ w later, words (first :: rest) = (first :: w) :: later := by
  obtain ⟨w, later, hsplit⟩ := List.exists_cons_of_ne_nil (List.splitOn_ne_nil ' ' rest)
  refine ⟨w, later.filter (· ≠ []), ?_⟩
  rw [words, List.splitOn_cons_eq_if_modifyHead, if_neg (by simpa using h), hsplit]
  simp

/-- What is left of the lines of a text, as far as symbols are known. -/
def preprocess (known : String → Option Bool) (text : String) : List String :=
  resolve lineRole (wordsValue known) (Text.bodies text)

/-- A line is text if it starts with no blank and no number sign. -/
theorem lineRole_eq_text {line : String} {first : Char} (depth : Nat)
    (hline : line.toList.head? = some first) (hblank : first ≠ ' ') (hsign : first ≠ '#') :
    lineRole (Writer.lineBody depth line) = .text := by
  obtain ⟨rest, hrest⟩ := List.head?_eq_some_iff.mp hline
  obtain ⟨w, later, hwords⟩ := words_cons_of_ne rest hblank
  rw [lineRole, words_lineBody, hrest, hwords]
  simp [wordsRole, hsign]

end Preprocessor
end MaterialShader
