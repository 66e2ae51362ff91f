import Mathlib.Data.List.SplitBy
import MaterialShader.Proofs.DirectiveText
import MaterialShader.Proofs.NodeInput

/-!
# Inputs read in the text of code

A compiler of the shading language sees lines and no trees.  A line reads a member of the
inputs where the name `IN` stands, a point behind it and then the name of the member, each a
piece of the line by itself.  This is compared with what the trees read: a name from a document
is a piece of its own, so it cannot end in `IN` before a point, and no input is hidden in one.

## Main definitions

* `Text.pieces`, `Text.ReadsInput` — the pieces of a line, and the members that it reads.
* `Code.textLines` — the lines of code that are no directives.
* `Shading.Expr.IsRegular`, `Shading.Statement.IsRegular` — trees whose names are pieces.

## Main results

* `Shading.Expr.readsInput_text_iff`, `Shading.Statement.readsInput_code_iff` — lines read what
  trees read.
* `Operation.Computes.isRegular` — the trees of nodes are regular.
-/

namespace MaterialShader

/-! ### Pieces of a line -/

namespace Text

/-- The pieces of a line: runs of identifier characters, and every other character by
itself. -/
def pieces (line : List Char) : List (List Char) :=
  line.splitBy fun a b => isIdentChar a && isIdentChar b

/-- A line reads a member of the inputs. -/
def ReadsInput (line : List Char) (member : String) : Prop :=
  isIdentifier member = true ∧ ["IN".toList, ['.'], member.toList] <:+: pieces line

instance (line : List Char) (member : String) : Decidable (ReadsInput line member) :=
  inferInstanceAs (Decidable (_ ∧ _))

variable {a b line w : List Char} {c : Char} {m : String}

theorem pieces_append_cons (hc : isIdentChar c = false) :
    pieces (a ++ c :: b) = pieces a ++ [c] :: pieces b := by
  have hleft : pieces (a ++ c :: b) = pieces a ++ pieces (c :: b) :=
    List.splitBy_append_cons b fun x _ => by rw [hc, Bool.and_false]
  have hright : pieces ([c] ++ b) = pieces [c] ++ pieces b := by
    refine List.splitBy_append fun x hx y _ => ?_
    rw [List.getLast?_singleton, Option.mem_some_iff] at hx
    rw [← hx, hc, Bool.false_and]
  rw [hleft]
  exact congrArg _ hright

theorem pieces_eq_singleton (hne : w ≠ []) (hw : ∀ c ∈ w, isIdentChar c = true) :
    pieces w = [w] := by
  refine List.splitBy_of_isChain hne (List.Pairwise.isChain ?_)
  refine List.pairwise_of_forall_mem_list fun x hx y hy => ?_
  rw [hw x hx, hw y hy, Bool.and_self]

theorem pieces_word (hw : ∀ c ∈ w, isIdentChar c = true) : pieces w = if w = [] then [] else [w] := by
  split
  · next hnil => rw [hnil]; rfl
  · next hne => exact pieces_eq_singleton hne hw

theorem mem_of_mem_pieces {piece : List Char} (h : piece ∈ pieces line) (hc : c ∈ piece) :
    c ∈ line := by
  have hmem : c ∈ (pieces line).flatten := List.mem_flatten.mpr ⟨piece, h, hc⟩
  rwa [pieces, List.flatten_splitBy] at hmem

/-! ### What a line reads -/

/-- What stands on one side of a separator stands beside none of the other side. -/
theorem infix_append_cons_iff {α : Type} {l xs ys : List α} {x : α} (hx : x ∉ l) :
    l <:+: xs ++ x :: ys ↔ l <:+: xs ∨ l <:+: ys := by
  constructor
  · intro h
    rcases List.infix_append_iff.mp h with h | h | ⟨l₁, l₂, rfl, hl₁, hl₂⟩
    · exact Or.inl h
    · rcases List.infix_cons_iff.mp h with h | h
      · rcases List.prefix_cons_iff.mp h with rfl | ⟨t, rfl, -⟩
        · exact Or.inl List.nil_infix
        · exact absurd List.mem_cons_self hx
      · exact Or.inr h
    · rcases List.prefix_cons_iff.mp hl₂ with rfl | ⟨t, rfl, -⟩
      · rw [List.append_nil]
        exact Or.inl hl₁.isInfix
      · exact absurd (List.mem_append_right _ List.mem_cons_self) hx
  · rintro (h | h)
    · exact h.trans (List.prefix_append _ _).isInfix
    · exact h.trans ((List.suffix_cons _ _).trans (List.suffix_append _ _)).isInfix

/-- A separator other than the point cuts what a line reads in two. -/
theorem readsInput_append_cons (hc : isIdentChar c = false) (hpoint : c ≠ '.') :
    ReadsInput (a ++ c :: b) m ↔ ReadsInput a m ∨ ReadsInput b m := by
  unfold ReadsInput
  rw [← and_or_left, pieces_append_cons hc]
  refine and_congr_right fun hm => infix_append_cons_iff ?_
  -- the separator is neither the name of the inputs nor the point nor a member
  intro hmem
  rcases List.mem_cons.mp hmem with heq | hmem
  · exact absurd heq (by simp)
  rcases List.mem_cons.mp hmem with heq | hmem
  · exact hpoint (List.cons.inj heq).1
  · have hchar := (isIdentifier_iff.mp hm).1 c (by
      rw [← List.mem_singleton.mp hmem]
      exact List.mem_singleton_self c)
    rw [hc] at hchar
    exact Bool.false_ne_true hchar

theorem readsInput_cons (hc : isIdentChar c = false) (hpoint : c ≠ '.') :
    ReadsInput (c :: b) m ↔ ReadsInput b m := by
  have h := readsInput_append_cons (a := []) (b := b) (m := m) hc hpoint
  have hnil : ¬ReadsInput [] m := fun h => absurd h.2.length_le (by simp [pieces])
  rwa [List.nil_append, or_iff_right hnil] at h

theorem not_readsInput_of_point (h : '.' ∉ line) : ¬ReadsInput line m := fun hreads =>
  h (mem_of_mem_pieces (hreads.2.mem (by simp)) (List.mem_singleton_self '.'))

theorem not_readsInput_of_name (h : 'I' ∉ line) : ¬ReadsInput line m := fun hreads =>
  h (mem_of_mem_pieces (hreads.2.mem List.mem_cons_self) (by decide))

theorem not_readsInput_of_isName {s : String} (h : IsName s) : ¬ReadsInput s.toList m :=
  not_readsInput_of_point fun hmem => absurd (h _ hmem) (by decide)

/-- A line that is the name of the inputs, a point and a member reads that member. -/
theorem readsInput_member_iff {member : String} (h : isIdentifier member = true) :
    ReadsInput ("IN." ++ member).toList m ↔ m = member := by
  obtain ⟨hchars, c, hc, -⟩ := isIdentifier_iff.mp h
  have hne : member.toList ≠ [] := by
    rintro hnil
    rw [hnil] at hc
    exact absurd hc (by simp)
  have hpieces : pieces ("IN." ++ member).toList = ["IN".toList, ['.'], member.toList] := by
    have hline : ("IN." ++ member).toList = "IN".toList ++ '.' :: member.toList := by simp
    have hinputs : IsName "IN" := by decide
    rw [hline, pieces_append_cons (by decide), pieces_eq_singleton hne hchars,
      pieces_eq_singleton (by decide) hinputs]
    rfl
  rw [ReadsInput, hpieces]
  constructor
  · rintro ⟨-, hinfix⟩
    have heq := hinfix.eq_of_length rfl
    simp only [List.cons.injEq, true_and, and_true] at heq
    exact String.toList_inj.mp heq
  · rintro rfl
    exact ⟨h, List.infix_rfl⟩

/-- A selection behind a point reads nothing, unless it follows the name of the inputs. -/
theorem readsInput_append_point (hlast : (pieces a).getLast? ≠ some "IN".toList)
    (hw : ∀ c ∈ w, isIdentChar c = true) : ReadsInput (a ++ '.' :: w) m ↔ ReadsInput a m := by
  unfold ReadsInput
  refine and_congr_right fun hm => ?_
  have hmember : m.toList ≠ ['.'] := fun heq =>
    absurd ((isIdentifier_iff.mp hm).1 '.' (by rw [heq]; exact List.mem_singleton_self _)) (by decide)
  rw [pieces_append_cons (by decide)]
  constructor
  · intro h
    rcases List.infix_append_iff.mp h with h | h | ⟨l₁, l₂, hl, hl₁, hl₂⟩
    · exact h
    · -- two pieces at most stand behind the point and with it
      have hlength := h.length_le
      rw [pieces_word hw] at hlength
      split at hlength <;> simp at hlength
    · -- the point can only be the one that was written, and then the name would stand before it
      rcases List.prefix_cons_iff.mp hl₂ with rfl | ⟨t, rfl, -⟩
      · rw [List.append_nil] at hl
        rw [hl]
        exact hl₁.isInfix
      · match l₁, hl with
        | [], hl => simp at hl
        | [x], hl =>
          obtain rfl : "IN".toList = x := by simpa using (List.cons.inj hl).1
          obtain ⟨init, hinit⟩ := hl₁
          rw [← hinit, List.getLast?_append] at hlast
          exact absurd rfl hlast
        | [x, y], hl =>
          simp only [List.cons_append, List.nil_append, List.cons.injEq] at hl
          exact absurd hl.2.2.1 hmember
        | x :: y :: z :: rest, hl => simp at hl
  · intro h
    exact h.trans (List.prefix_append _ _).isInfix

/-- A list with commas reads what its entries read. -/
theorem readsInput_intercalate_iff {texts : List String} :
    ReadsInput (", ".intercalate texts).toList m ↔ ∃ t ∈ texts, ReadsInput t.toList m := by
  induction texts with
  | nil =>
    refine iff_of_false (not_readsInput_of_point List.not_mem_nil) ?_
    rintro ⟨t, ht, -⟩
    exact List.not_mem_nil ht
  | cons t rest ih =>
    cases rest with
    | nil => simp
    | cons u rest =>
      have hsplit : (", ".intercalate (t :: u :: rest)).toList =
          t.toList ++ ',' :: ' ' :: (", ".intercalate (u :: rest)).toList := by
        rw [String.intercalate_cons_cons]
        simp
      rw [hsplit, readsInput_append_cons (by decide) (by decide),
        readsInput_cons (by decide) (by decide), ih]
      simp only [List.mem_cons, exists_eq_or_imp]

end Text

open Shading (ValueType Typed Expr Statement Lane Arm Helper)
open Text (IsName ReadsInput isIdentChar isName_identifier readsInput_append_cons
  readsInput_cons not_readsInput_of_isName not_readsInput_of_point not_readsInput_of_name)

/-! ### Expressions -/

namespace Shading

variable {m : String}

theorem not_readsInput_literal (s : Single) : ¬ReadsInput s.literal.toList m :=
  not_readsInput_of_name fun hmem => absurd (Single.mem_literal hmem) (by decide)

theorem not_readsInput_constantText (values : List Single) :
    ¬ReadsInput (constantText values).toList m := by
  have hvector : ∀ t : ValueType, ¬ReadsInput
      (t.name ++ "(" ++ ", ".intercalate (values.map Single.literal) ++ ")").toList m := by
    intro t
    have htext : (t.name ++ "(" ++ ", ".intercalate (values.map Single.literal) ++ ")").toList =
        t.name.toList ++ '(' :: ((", ".intercalate (values.map Single.literal)).toList ++ [')']) := by
      simp
    have hname : '.' ∉ t.name.toList := by cases t <;> decide
    rw [htext, readsInput_append_cons (by decide) (by decide),
      readsInput_append_cons (by decide) (by decide), Text.readsInput_intercalate_iff]
    rintro (h | ⟨t, ht, h⟩ | h)
    · exact not_readsInput_of_point hname h
    · obtain ⟨s, -, rfl⟩ := List.mem_map.mp ht
      exact not_readsInput_literal s h
    · exact not_readsInput_of_point List.not_mem_nil h
  unfold constantText
  split
  · cases values.head? with
    | none =>
      rw [Option.map_none, Option.getD_none]
      exact not_readsInput_literal _
    | some s =>
      rw [Option.map_some, Option.getD_some]
      exact not_readsInput_literal s
  · exact hvector _

namespace Expr

/-- Components may be taken of an expression: it does not end in the name of the inputs. -/
def IsSelectable : Expr → Prop
  | .variable name => name ≠ "IN"
  | .input member => member ≠ "IN"
  | .group _ => True
  | _ => False

/-- The names of an expression are pieces of the line that it is written on. -/
def IsRegular : Expr → Prop
  | .variable name => IsName name
  | .property name => IsName name
  | .input member => Text.isIdentifier member = true
  | .constant _ => True
  | .group e => e.IsRegular
  | .lanes e _ => e.IsRegular ∧ e.IsSelectable
  | .channel e _ => e.IsRegular ∧ e.IsSelectable
  | .pad _ e _ => e.IsRegular
  | .quotient a b => a.IsRegular ∧ b.IsRegular
  | .sample texture uv _ => IsName texture ∧ uv.IsRegular
  | .scene _ uv => uv.IsRegular

theorem getLast?_pieces {e : Expr} (h : e.IsRegular) (hselectable : e.IsSelectable) :
    (Text.pieces e.text.toList).getLast? ≠ some "IN".toList := by
  cases e with
  | «variable» name =>
    have hname : ∀ c ∈ name.toList, isIdentChar c = true := h
    show (Text.pieces name.toList).getLast? ≠ some "IN".toList
    rw [Text.pieces_word hname]
    split
    · simp
    · rw [List.getLast?_singleton, Ne, Option.some_inj]
      exact fun heq => hselectable (String.toList_inj.mp heq)
  | input member =>
    have hmember : ∀ c ∈ member.toList, isIdentChar c = true := (Text.isIdentifier_iff.mp h).1
    have htext : ("IN." ++ member).toList = "IN".toList ++ '.' :: member.toList := by simp
    show (Text.pieces ("IN." ++ member).toList).getLast? ≠ some "IN".toList
    rw [htext, Text.pieces_append_cons (by decide), Text.pieces_word hmember]
    split
    · simp
    · rw [List.getLast?_append, List.getLast?_cons_cons, List.getLast?_singleton, Option.some_or,
        Ne, Option.some_inj]
      exact fun heq => hselectable (String.toList_inj.mp heq)
  | group e =>
    have htext : ("(" ++ e.text ++ ")").toList = ('(' :: e.text.toList) ++ ')' :: [] := by simp
    show (Text.pieces ("(" ++ e.text ++ ")").toList).getLast? ≠ some "IN".toList
    rw [htext, Text.pieces_append_cons (by decide), List.getLast?_append]
    simp [Text.pieces]
  | _ => exact absurd hselectable id

/-- A texture macro reads what its coordinate reads. -/
theorem readsInput_sample {texture : String} (h : IsName texture) {uv : Expr}
    {explicitLevel : Bool} : ReadsInput (Expr.sample texture uv explicitLevel).text.toList m ↔
      ReadsInput uv.text.toList m := by
  have hsampler : '.' ∉ "sampler".toList ++ texture.toList := by
    intro hmem
    rcases List.mem_append.mp hmem with hmem | hmem
    · exact absurd hmem (by decide)
    · exact absurd (h _ hmem) (by decide)
  -- what comes before the coordinate is the same with and without a level of detail
  have hcall : ∀ name rest : List Char, '.' ∉ name →
      (ReadsInput (name ++ '(' :: (texture.toList ++ ',' :: ' ' ::
          (("sampler".toList ++ texture.toList) ++ ',' :: ' ' :: rest))) m ↔
        ReadsInput rest m) := by
    intro name rest hname
    rw [readsInput_append_cons (by decide) (by decide),
      readsInput_append_cons (by decide) (by decide), readsInput_cons (by decide) (by decide),
      readsInput_append_cons (by decide) (by decide), readsInput_cons (by decide) (by decide),
      or_iff_right (not_readsInput_of_point hname),
      or_iff_right (not_readsInput_of_isName h),
      or_iff_right (not_readsInput_of_point hsampler)]
  cases explicitLevel with
  | false =>
    have htext : ("SAMPLE_TEXTURE2D(" ++ texture ++ ", sampler" ++ texture ++ ", " ++ uv.text ++
        ")").toList = "SAMPLE_TEXTURE2D".toList ++ '(' :: (texture.toList ++ ',' :: ' ' ::
          (("sampler".toList ++ texture.toList) ++ ',' :: ' ' ::
            (uv.text.toList ++ ')' :: []))) := by
      simp
    show ReadsInput ("SAMPLE_TEXTURE2D(" ++ texture ++ ", sampler" ++ texture ++ ", " ++
      uv.text ++ ")").toList m ↔ _
    rw [htext, hcall _ _ (by decide), readsInput_append_cons (by decide) (by decide)]
    exact or_iff_left (not_readsInput_of_point List.not_mem_nil)
  | true =>
    have htext : ("SAMPLE_TEXTURE2D_LOD(" ++ texture ++ ", sampler" ++ texture ++ ", " ++
        uv.text ++ ", 0)").toList = "SAMPLE_TEXTURE2D_LOD".toList ++ '(' :: (texture.toList ++
          ',' :: ' ' :: (("sampler".toList ++ texture.toList) ++ ',' :: ' ' ::
            (uv.text.toList ++ ',' :: " 0)".toList))) := by
      simp
    show ReadsInput ("SAMPLE_TEXTURE2D_LOD(" ++ texture ++ ", sampler" ++ texture ++ ", " ++
      uv.text ++ ", 0)").toList m ↔ _
    rw [htext, hcall _ _ (by decide), readsInput_append_cons (by decide) (by decide)]
    exact or_iff_left (not_readsInput_of_point (by decide))

/-- **The text of an expression reads what its tree reads.** -/
theorem readsInput_text_iff {e : Expr} (h : e.IsRegular) :
    ReadsInput e.text.toList m ↔ m ∈ e.inputs := by
  induction e with
  | «variable» name =>
    exact iff_of_false (not_readsInput_of_isName h) List.not_mem_nil
  | property name =>
    exact iff_of_false (not_readsInput_of_isName h) List.not_mem_nil
  | input member =>
    rw [inputs, List.mem_singleton]
    exact Text.readsInput_member_iff h
  | constant values =>
    exact iff_of_false (not_readsInput_constantText values) List.not_mem_nil
  | group e ih =>
    have htext : ("(" ++ e.text ++ ")").toList = '(' :: (e.text.toList ++ ')' :: []) := by simp
    show ReadsInput ("(" ++ e.text ++ ")").toList m ↔ m ∈ e.inputs
    rw [htext, readsInput_cons (by decide) (by decide),
      readsInput_append_cons (by decide) (by decide), ih h]
    exact or_iff_left (not_readsInput_of_point List.not_mem_nil)
  | lanes e selected ih =>
    have htext : (e.text ++ "." ++ Lane.selection selected).toList =
        e.text.toList ++ '.' :: selected.map Lane.letter := by
      simp [Lane.selection]
    show ReadsInput (e.text ++ "." ++ Lane.selection selected).toList m ↔ m ∈ e.inputs
    rw [htext, Text.readsInput_append_point (getLast?_pieces h.1 h.2), ih h.1]
    intro c hc
    obtain ⟨l, -, rfl⟩ := List.mem_map.mp hc
    cases l <;> decide
  | channel e selected ih =>
    have htext : (e.text ++ "." ++ selected.letter).toList =
        e.text.toList ++ '.' :: selected.letter.toList := by
      simp
    show ReadsInput (e.text ++ "." ++ selected.letter).toList m ↔ m ∈ e.inputs
    have hletter : IsName selected.letter := by cases selected <;> decide
    rw [htext, Text.readsInput_append_point (getLast?_pieces h.1 h.2) hletter, ih h.1]
  | pad type e zeros ih =>
    have htext : (type.name ++ "(" ++ ", ".intercalate (e.text :: List.replicate zeros "0") ++
        ")").toList = type.name.toList ++ '(' ::
          ((", ".intercalate (e.text :: List.replicate zeros "0")).toList ++ ')' :: []) := by
      simp
    show ReadsInput (type.name ++ "(" ++ ", ".intercalate (e.text :: List.replicate zeros "0") ++
      ")").toList m ↔ m ∈ e.inputs
    have hname : '.' ∉ type.name.toList := by cases type <;> decide
    rw [htext, readsInput_append_cons (by decide) (by decide),
      readsInput_append_cons (by decide) (by decide), Text.readsInput_intercalate_iff,
      or_iff_right (not_readsInput_of_point hname),
      or_iff_left (not_readsInput_of_point List.not_mem_nil)]
    constructor
    · rintro ⟨t, ht, hreads⟩
      rcases List.mem_cons.mp ht with rfl | ht
      · exact (ih h).mp hreads
      · rw [List.eq_of_mem_replicate ht] at hreads
        exact absurd hreads (not_readsInput_of_point (by decide))
    · intro hm
      exact ⟨e.text, List.mem_cons_self, (ih h).mpr hm⟩
  | quotient a b iha ihb =>
    have htext : (a.text ++ " / " ++ b.text).toList =
        a.text.toList ++ ' ' :: '/' :: ' ' :: b.text.toList := by
      simp
    show ReadsInput (a.text ++ " / " ++ b.text).toList m ↔ m ∈ (Expr.quotient a b).inputs
    rw [htext, readsInput_append_cons (by decide) (by decide),
      readsInput_cons (by decide) (by decide), readsInput_cons (by decide) (by decide),
      iha h.1, ihb h.2, inputs, List.mem_append]
  | sample texture uv explicitLevel ih =>
    rw [readsInput_sample h.1, ih h.2]
    rfl
  | scene buffer uv ih =>
    have htext : (buffer.sampler ++ "(" ++ uv.text ++ ")").toList =
        buffer.sampler.toList ++ '(' :: (uv.text.toList ++ ')' :: []) := by
      simp
    show ReadsInput (buffer.sampler ++ "(" ++ uv.text ++ ")").toList m ↔ m ∈ uv.inputs
    have hsampler : '.' ∉ buffer.sampler.toList := by cases buffer <;> decide
    rw [htext, readsInput_append_cons (by decide) (by decide),
      readsInput_append_cons (by decide) (by decide), ih h,
      or_iff_right (not_readsInput_of_point hsampler)]
    exact or_iff_left (not_readsInput_of_point List.not_mem_nil)

/-- A conversion keeps an expression regular, and puts what it selects from in parentheses. -/
theorem isRegular_coerce {v : Typed} (h : v.expr.IsRegular) (target : ValueType) :
    (v.coerce target).expr.IsRegular := by
  unfold Typed.coerce
  split
  · exact h
  · split
    · exact ⟨h, trivial⟩
    · split
      · exact ⟨h, trivial⟩
      · exact h

end Expr
end Shading

/-! ### Lines of code -/

namespace Code

mutual

/-- The lines of a step.  A directive is left out: it is for the preprocessor, which knows no
inputs. -/
def textLine : Code → List String
  | .line s => [s]
  | .directive _ => []
  | .lines s => Text.bodies s
  | .newline => []
  | .nested scope body => scope.opening?.toList ++ textLines body ++ scope.closing?.toList

/-- The lines of a program, directives left out. -/
def textLines : List Code → List String
  | [] => []
  | c :: rest => textLine c ++ textLines rest

end

theorem textLines_append (program rest : List Code) :
    textLines (program ++ rest) = textLines program ++ textLines rest := by
  induction program with
  | nil => rfl
  | cons c program ih => rw [List.cons_append, textLines, textLines, ih, List.append_assoc]

theorem textLines_flatMap {ι : Type} (items : List ι) (f : ι → List Code) :
    textLines (items.flatMap f) = items.flatMap fun i => textLines (f i) := by
  induction items with
  | nil => rfl
  | cons i items ih => rw [List.flatMap_cons, textLines_append, ih, List.flatMap_cons]

/-- The code has a line that reads a member of the inputs. -/
def ReadsInput (program : List Code) (member : String) : Prop :=
  ∃ line ∈ textLines program, Text.ReadsInput line.toList member

theorem readsInput_flatMap {ι : Type} {items : List ι} {f : ι → List Code} {m : String} :
    ReadsInput (items.flatMap f) m ↔ ∃ i ∈ items, ReadsInput (f i) m := by
  unfold ReadsInput
  rw [textLines_flatMap]
  constructor
  · rintro ⟨line, hline, hreads⟩
    obtain ⟨i, hi, hline⟩ := List.mem_flatMap.mp hline
    exact ⟨i, hi, line, hline, hreads⟩
  · rintro ⟨i, hi, line, hline, hreads⟩
    exact ⟨line, List.mem_flatMap.mpr ⟨i, hi, hline⟩, hreads⟩

theorem readsInput_line {line m : String} :
    ReadsInput [.line line] m ↔ Text.ReadsInput line.toList m := by
  simp [ReadsInput, textLines, textLine]

end Code

/-! ### Statements -/

namespace Shading

variable {m : String}

/-- The names of a statement are pieces of the lines that it is written on. -/
def Statement.IsRegular : Statement → Prop
  | .define _ name value => IsName name ∧ value.IsRegular
  | .declare _ name => IsName name
  | .call _ left right result => left.IsRegular ∧ right.IsRegular ∧ IsName result
  | .select _ name arms => IsName name ∧ ∀ a ∈ arms, a.value.IsRegular

theorem readsInput_definitionLine {type : ValueType} {name : String} {value : Expr}
    (hname : IsName name) (hvalue : value.IsRegular) :
    ReadsInput (definitionLine type name value).toList m ↔ m ∈ value.inputs := by
  have hline : (definitionLine type name value).toList = type.name.toList ++ ' ' ::
      (name.toList ++ ' ' :: '=' :: ' ' :: (value.text.toList ++ ';' :: [])) := by
    simp [definitionLine]
  have htype : '.' ∉ type.name.toList := by cases type <;> decide
  rw [hline, readsInput_append_cons (by decide) (by decide),
    readsInput_append_cons (by decide) (by decide), readsInput_cons (by decide) (by decide),
    readsInput_cons (by decide) (by decide), readsInput_append_cons (by decide) (by decide),
    or_iff_right (not_readsInput_of_point htype), or_iff_right (not_readsInput_of_isName hname),
    Expr.readsInput_text_iff hvalue]
  exact or_iff_left (not_readsInput_of_point List.not_mem_nil)

theorem readsInput_callLine {helper : Helper} {left right : Expr} {result : String}
    (hleft : left.IsRegular) (hright : right.IsRegular) (hresult : IsName result) :
    ReadsInput (helper.name ++ "(" ++ left.text ++ ", " ++ right.text ++ ", " ++ result ++
      ");").toList m ↔ m ∈ left.inputs ∨ m ∈ right.inputs := by
  have hline : (helper.name ++ "(" ++ left.text ++ ", " ++ right.text ++ ", " ++ result ++
      ");").toList = helper.name.toList ++ '(' :: (left.text.toList ++ ',' :: ' ' ::
        (right.text.toList ++ ',' :: ' ' :: (result.toList ++ ')' :: [';']))) := by
    simp
  have hhelper : '.' ∉ helper.name.toList := by
    obtain ⟨operator, type⟩ := helper
    cases operator <;> cases type <;> decide
  rw [hline, readsInput_append_cons (by decide) (by decide),
    readsInput_append_cons (by decide) (by decide), readsInput_cons (by decide) (by decide),
    readsInput_append_cons (by decide) (by decide), readsInput_cons (by decide) (by decide),
    readsInput_append_cons (by decide) (by decide),
    or_iff_right (not_readsInput_of_point hhelper), Expr.readsInput_text_iff hleft,
    Expr.readsInput_text_iff hright, or_iff_right (not_readsInput_of_isName hresult)]
  refine or_congr_right (or_iff_left (not_readsInput_of_point ?_))
  decide

/-- **The code of a statement reads what its tree reads.** -/
theorem Statement.readsInput_code_iff {s : Statement} (h : s.IsRegular) :
    Code.ReadsInput s.code m ↔ m ∈ s.inputs := by
  cases s with
  | define type name value =>
    exact Code.readsInput_line.trans (readsInput_definitionLine h.1 h.2)
  | declare type name =>
    refine iff_of_false (fun hreads => ?_) List.not_mem_nil
    refine not_readsInput_of_point ?_ (Code.readsInput_line.mp hreads)
    have hname : IsName name := h
    have hpoint : '.' ∉ name.toList := fun hmem => absurd (hname _ hmem) (by decide)
    have htype : '.' ∉ type.name.toList := by cases type <;> decide
    simp [hpoint, htype]
  | call helper left right result =>
    refine Code.readsInput_line.trans ((readsInput_callLine h.1 h.2.1 h.2.2).trans ?_)
    exact List.mem_append.symm
  | select type name arms =>
    have hlines : Code.textLines (Statement.select type name arms).code =
        arms.map fun a => definitionLine type name a.value := by
      show Code.textLines (arms.flatMap (Arm.code type name) ++ [.directive .endIf]) = _
      rw [Code.textLines_append, Code.textLines_flatMap]
      have harm : ∀ a : Arm, Code.textLines (Arm.code type name a) =
          [definitionLine type name a.value] := fun a => by
        simp [Arm.code, Code.textLines, Code.textLine, Scope.opening?, Scope.closing?]
      simp only [harm, Code.textLines, Code.textLine, List.append_nil]
      exact List.flatMap_pure_eq_map _ arms
    unfold Code.ReadsInput
    rw [hlines, Statement.inputs, List.mem_flatMap]
    constructor
    · rintro ⟨line, hline, hreads⟩
      obtain ⟨a, ha, rfl⟩ := List.mem_map.mp hline
      exact ⟨a, ha, (readsInput_definitionLine h.1 (h.2 a ha)).mp hreads⟩
    · rintro ⟨a, ha, hm⟩
      exact ⟨_, List.mem_map_of_mem ha, (readsInput_definitionLine h.1 (h.2 a ha)).mpr hm⟩

end Shading

/-! ### The statements of nodes -/

theorem Node.variable_ne_inputs (n : Node) (socket : String) : n.variable socket ≠ "IN" := by
  intro heq
  have hhead : (n.variable socket).toList.head? = "IN".toList.head? := by rw [heq]
  simp [Node.variable] at hhead

theorem isIdentifier_uvInput (channel : Nat) :
    Text.isIdentifier (Requirements.uvInput channel) = true := by
  rw [Text.isIdentifier_iff, Requirements.uvInput]
  refine ⟨?_, 'u', by simp, by decide⟩
  have hstart : IsName "uv" := by decide
  exact Text.isName_append.mpr ⟨hstart, Text.isName_toString channel⟩

theorem uvInput_ne_inputs (channel : Nat) : Requirements.uvInput channel ≠ "IN" := by
  intro heq
  have hhead : (Requirements.uvInput channel).toList.head? = "IN".toList.head? := by rw [heq]
  simp [Requirements.uvInput] at hhead

/-- The value of an input is regular if its default is. -/
theorem Graph.isRegular_inputValue {g : Graph} {n : Node} {socket : String} {type : ValueType}
    {default : Expr} {v : Typed} (h : g.inputValue n socket type default = .ok v)
    (hdefault : default.IsRegular) : v.expr.IsRegular := by
  obtain ⟨-, rfl⟩ | ⟨c, source, t, -, -, -, rfl⟩ := inputValue_spec h
  · exact hdefault
  · have hvariable : (Expr.variable (source.node.variable c.source.socket)).IsRegular :=
      source.node.isName_variable c.source.socket
    exact Expr.isRegular_coerce hvariable type

namespace Operation

variable {e : Evaluation} {o : Operation} {statements : List Statement} {m : String}

theorem isIdentifier_geometryInput? {type : ValueType} (h : o.geometryInput? = some (type, m)) :
    Text.isIdentifier m = true := by
  have hposition : ∀ s, Text.isIdentifier (Requirements.positionInput s) = true := by
    intro s
    cases s <;> decide
  have hnormal : ∀ s, Text.isIdentifier (Requirements.normalInput s) = true := by
    intro s
    cases s <;> decide
  unfold geometryInput? at h
  split at h
  · rw [← (Prod.mk.inj (Option.some.inj h)).2]
    exact isIdentifier_uvInput _
  · rw [← (Prod.mk.inj (Option.some.inj h)).2]
    exact hposition _
  · rw [← (Prod.mk.inj (Option.some.inj h)).2]
    exact hnormal _
  · rw [← (Prod.mk.inj (Option.some.inj h)).2]
    decide
  · exact absurd h (by rintro ⟨⟩)

theorem isRegular_meshUv (channel : Nat) : (meshUv channel).IsRegular :=
  ⟨isIdentifier_uvInput channel, uvInput_ne_inputs channel⟩

theorem isRegular_screenUv : screenUv.IsRegular :=
  have hposition : Text.isIdentifier "ScreenPosition" = true ∧ "ScreenPosition" ≠ "IN" := by decide
  ⟨hposition, hposition⟩

/-- **The statements of a node are regular.** -/
theorem Computes.isRegular (h : o.Computes e statements) : ∀ s ∈ statements, s.IsRegular := by
  have hout : ∀ socket, IsName (o.node.variable socket) := o.node.isName_variable
  cases h with
  | master hkind => exact List.forall_mem_nil _
  | constant hvalue =>
    rename_i value
    refine List.forall_mem_singleton.mpr ⟨hout _, ?_⟩
    cases hproperty : o.backingProperty? e.mode with
    | some p => exact isName_backingProperty hproperty
    | none => cases value <;> trivial
  | time hkind =>
    intro s hs
    obtain ⟨p, -, rfl⟩ := List.mem_map.mp hs
    have htime : Text.isIdentifier "TimeParameters" = true ∧ "TimeParameters" ≠ "IN" := by decide
    exact ⟨hout _, htime⟩
  | geometry hinput =>
    exact List.forall_mem_singleton.mpr ⟨hout _, isIdentifier_geometryInput? hinput⟩
  | operator hop htype hleft hright =>
    refine List.forall_mem_cons.mpr ⟨hout _, List.forall_mem_singleton.mpr ?_⟩
    exact ⟨Graph.isRegular_inputValue hleft trivial, Graph.isRegular_inputValue hright trivial,
      hout _⟩
  | texture hkind huv =>
    refine List.forall_mem_cons.mpr ⟨⟨hout _, isName_identifier _, ?_⟩, fun s hs => ?_⟩
    · exact Graph.isRegular_inputValue huv (isRegular_meshUv _)
    · obtain ⟨c, -, rfl⟩ := List.mem_map.mp hs
      exact ⟨hout _, hout _, o.node.variable_ne_inputs _⟩
  | scene hbuffer huv =>
    exact List.forall_mem_singleton.mpr
      ⟨hout _, Graph.isRegular_inputValue huv isRegular_screenUv⟩
  | keyword hkind hk htype hvalue =>
    refine List.forall_mem_singleton.mpr ⟨hout _, fun a ha => ?_⟩
    obtain ⟨b, hb, rfl⟩ := List.mem_map.mp ha
    obtain ⟨v, hv, hexpr⟩ := hvalue b hb
    show (Expr.IsRegular _)
    rw [hexpr]
    exact Graph.isRegular_inputValue hv trivial

/-- **The code of a node reads what the node asks for.** -/
theorem mem_requirements_of_code {code : List Code} (h : o.code e = .ok code)
    (hm : Code.ReadsInput code m) : m ∈ (o.requirements e.graph e.stage).inputs := by
  obtain ⟨statements, hstatements, h⟩ := Outcome.bind_eq_ok_iff.mp h
  rw [← Outcome.pure_eq_ok_iff.mp h] at hm
  obtain ⟨s, hs, hm⟩ := Code.readsInput_flatMap.mp hm
  have hcomputes := computes_of_statements hstatements
  have hread := (Statement.readsInput_code_iff (hcomputes.isRegular s hs)).mp hm
  exact hcomputes.mem_requirements s hs m hread

end Operation

/-! ### The values of slots -/

theorem MasterSlot.isRegular_default {stage : Stage} {s : MasterSlot}
    (h : s ∈ MasterSlot.ofStage stage) : s.default.IsRegular := by
  cases stage with
  | vertex =>
    rcases List.mem_cons.mp h with rfl | h
    · show Text.isIdentifier (Requirements.positionInput .object) = true
      decide
    · rw [List.mem_singleton.mp h]
      show Text.isIdentifier (Requirements.normalInput .object) = true
      decide
  | pixel =>
    have hconstant : ∃ values, s.default = .constant values := by
      simp only [ofStage, ofPixel, List.mem_cons, List.not_mem_nil, or_false] at h
      rcases h with rfl | rfl | rfl | rfl <;> exact ⟨_, rfl⟩
    obtain ⟨values, hdefault⟩ := hconstant
    rw [hdefault]
    trivial

end MaterialShader
