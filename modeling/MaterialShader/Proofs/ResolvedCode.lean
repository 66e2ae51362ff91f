import MaterialShader.Proofs.FieldActivity
import MaterialShader.Proofs.JoinedLine
import MaterialShader.Proofs.PlainString
import MaterialShader.Proofs.StageCode

/-!
# What is left of code

A preprocessor that knows some symbols leaves certain lines of a program, at every depth that
the program may stand at.  What it leaves is put together from what it leaves of the parts, and
code under the guard of an activity leaves its lines or nothing.

The guards of the members of a struct are strings of a document.  Such a guard may ask for the
symbol of a permutation, so it need not stay, but whatever it asks for, its group closes.

## Main definitions

* `Code.LeavesLines` — what is left of the lines of a program.
* `Code.inActive` — code in the permutations of an activity.
* `FieldDescriptor.HasPlainStrings` — no string of a member breaks or directs a line.
* `FieldDescriptor.memberLines` — what is left of a member and its guard.

## Main results

* `Code.LeavesLines.inActive` — code in the permutations of an activity leaves its lines in
  these.
* `FieldDescriptor.leavesLines_member` — what is left of a member of a struct.
-/

namespace MaterialShader

open Shading (Directive Condition)
open Preprocessor
open Writer (lineBody)

/-! ### Lines of text -/

namespace Preprocessor

/-- A line whose first word is no directive is text, whatever follows. -/
theorem lineRole_of_word {line : String} (word rest : List Char)
    (hline : line.toList = word ++ ' ' :: rest) (hblank : ' ' ∉ word) (hne : word ≠ [])
    (hword : word ∉ directiveWords) : lineRole line = .text := by
  rw [lineRole, hline, words_append_blank, words_of_notMem hblank hne, List.singleton_append]
  simp only [directiveWords, List.mem_cons, List.not_mem_nil, or_false, not_or] at hword
  rw [wordsRole, if_neg hword.1, if_neg hword.2.1, if_neg hword.2.2.1, if_neg hword.2.2.2]

theorem lineRole_lineBody (depth : Nat) (line : String) :
    lineRole (lineBody depth line) = lineRole line := by rw [lineRole, words_lineBody, lineRole]

end Preprocessor

/-! ### Programs -/

namespace Code

/-- What is left of the lines of a program, whatever stands around them. -/
structure LeavesLines (known : String → Option Bool) (code : List Code)
    (left : Nat → List String) : Prop where
  /-- No line of the program is broken. -/
  isOneLine : ∀ depth, ∀ line ∈ writtenLines depth code, Text.IsOneLine line
  /-- The lines are resolved by themselves. -/
  yields : ∀ depth, Yields lineRole (wordsValue known) (writtenLines depth code) (left depth)

namespace LeavesLines

variable {known : String → Option Bool} {code rest : List Code} {left left' : Nat → List String}

theorem congr (h : LeavesLines known code left)
    (hlines : ∀ depth, writtenLines depth rest = writtenLines depth code) :
    LeavesLines known rest left where
  isOneLine depth := hlines depth ▸ h.isOneLine depth
  yields depth := hlines depth ▸ h.yields depth

theorem nil : LeavesLines known [] fun _ => [] where
  isOneLine _ := List.forall_mem_nil _
  yields _ := Yields.nil

theorem line {s : String} (h : IsPlain s) :
    LeavesLines known [.line s] fun depth => [lineBody depth s] where
  isOneLine _ := List.forall_mem_singleton.mpr (Writer.isOneLine_lineBody h.1)
  yields depth := Yields.text ((lineRole_lineBody depth s).trans h.2)

theorem newline : LeavesLines known [.newline] fun _ => [""] where
  isOneLine _ := List.forall_mem_singleton.mpr (by decide)
  yields _ := Yields.text rfl

theorem append (h : LeavesLines known code left) (hrest : LeavesLines known rest left') :
    LeavesLines known (code ++ rest) fun depth => left depth ++ left' depth where
  isOneLine depth := by
    rw [writtenLines_append]
    exact List.forall_mem_append.mpr ⟨h.isOneLine depth, hrest.isOneLine depth⟩
  yields depth := by
    rw [writtenLines_append]
    exact (h.yields depth).append (hrest.yields depth)

theorem flatMap {ι : Type} {items : List ι} {f : ι → List Code} {g : ι → Nat → List String}
    (h : ∀ i ∈ items, LeavesLines known (f i) (g i)) :
    LeavesLines known (items.flatMap f) fun depth => items.flatMap fun i => g i depth := by
  induction items with
  | nil => exact nil
  | cons i items ih =>
    obtain ⟨hi, hitems⟩ := List.forall_mem_cons.mp h
    simp only [List.flatMap_cons]
    exact hi.append (ih hitems)

theorem edge {edge : Option String} (h : ∀ s ∈ edge, IsPlain s) :
    LeavesLines known (ofLines edge.toList) fun depth => edge.toList.map (lineBody depth) := by
  cases edge with
  | none => exact nil
  | some s => exact line (h s rfl)

/-- The lines around a body stay. -/
theorem nested (scope : Scope) (h : LeavesLines known code left) :
    LeavesLines known [.nested scope code] fun depth =>
      scope.opening?.toList.map (lineBody depth) ++ left (depth + 1) ++
        scope.closing?.toList.map (lineBody depth) := by
  have hedges : (∀ s ∈ scope.opening?, IsPlain s) ∧ ∀ s ∈ scope.closing?, IsPlain s := by
    cases scope <;> decide
  have hopening : LeavesLines known (ofLines scope.opening?.toList) _ := edge hedges.1
  have hclosing : LeavesLines known (ofLines scope.closing?.toList) _ := edge hedges.2
  have hlines : ∀ depth, writtenLines depth [.nested scope code] =
      writtenLines depth (ofLines scope.opening?.toList) ++ writtenLines (depth + 1) code ++
        writtenLines depth (ofLines scope.closing?.toList) := by
    intro depth
    cases scope <;> simp [writtenLines, writtenLine, ofLines, Scope.opening?, Scope.closing?]
  exact {
    isOneLine := fun depth => by
      rw [hlines]
      exact List.forall_mem_append.mpr ⟨List.forall_mem_append.mpr
        ⟨hopening.isOneLine depth, h.isOneLine (depth + 1)⟩, hclosing.isOneLine depth⟩
    yields := fun depth => by
      rw [hlines]
      exact ((hopening.yields depth).append (h.yields (depth + 1))).append
        (hclosing.yields depth) }

/-- Code under a condition whose value is known leaves its lines or nothing. -/
theorem guarded {c : Condition} {holds : Bool} (hread : IsReadable c)
    (hvalue : conditionValue known c = some holds) (h : LeavesLines known code left) :
    LeavesLines known (Code.guarded c code) fun depth => if holds then left depth else [] where
  isOneLine depth := by
    have hopening : Text.IsOneLine (Directive.ifTrue c).text :=
      isOneLine_directive fun c' hc => Option.some.inj hc ▸ hread
    rw [Code.guarded, writtenLines_append]
    refine List.forall_mem_append.mpr ⟨List.forall_mem_cons.mpr ⟨?_, h.isOneLine depth⟩, ?_⟩
    · exact Writer.isOneLine_lineBody hopening
    · exact List.forall_mem_singleton.mpr (Writer.isOneLine_lineBody (by decide))
  yields depth := yields_writtenLines_guarded depth hread hvalue (h.yields depth)

end LeavesLines

/-! ### Code in some permutations -/

/-- Code in the permutations of an activity. -/
def inActive (a : Activity) (body : List Code) : List Code :=
  match a with
  | .always => body
  | .permutations indices => guarded (permutationsCondition indices) body
  | .never => []

theorem whereActive_eq (a : Activity) (line : String) :
    whereActive a line = inActive a [.line line] := by
  cases a <;> rfl

/-- **Code in the permutations of an activity** leaves its lines in these and nothing in the
others. -/
theorem LeavesLines.inActive {count index : Nat} {a : Activity} {body : List Code}
    {left : Nat → List String} (ha : a.IsSpread count)
    (h : LeavesLines (knownIn count index) body left) :
    LeavesLines (knownIn count index) (Code.inActive a body) fun depth =>
      if a.IsIn index then left depth else [] := by
  cases a with
  | always =>
    have hin : Activity.always.IsIn index := trivial
    simp only [if_pos hin]
    exact h
  | permutations indices =>
    have hguarded := h.guarded (isReadable_permutationsCondition ha.1)
      (conditionValue_permutationsCondition index ha.1 ha.2)
    simp only [decide_eq_true_eq] at hguarded
    exact hguarded
  | never =>
    have hout : ¬Activity.never.IsIn index := id
    simp only [if_neg hout]
    exact nil

/-! ### Code inside a text -/

theorem writtenLines_guarded (depth : Nat) (c : Condition) (body : List Code) :
    writtenLines depth (guarded c body) =
      lineBody depth (Directive.ifTrue c).text :: writtenLines depth body ++
        [lineBody depth Directive.endIf.text] := by
  rw [guarded, writtenLines_append]
  rfl

/-- A text that stands as one line under a condition has its lines there. -/
theorem text_guarded_line (c : Condition) {body : List Code} (hne : writtenLines 0 body ≠ []) :
    text (guarded c [.line (text body)]) = text (guarded c body) := by
  have hline : writtenLines 0 [.line (text body)] = [Text.joinLines (writtenLines 0 body)] := by
    rw [text_eq_joinLines body]
    simp [writtenLines, writtenLine]
  rw [text_eq_joinLines (guarded c _), text_eq_joinLines (guarded c _), writtenLines_guarded,
    writtenLines_guarded, hline, Writer.lineBody_zero, Writer.lineBody_zero]
  exact Text.joinLines_joinLines [(Directive.ifTrue c).text] hne

/-! ### Guards of a document -/

section Guarded

variable {known : String → Option Bool} {condition : Option String} {line text : String}

theorem isOneLine_guardedBy (hcondition : ∀ s ∈ condition, Text.IsOneLine s)
    (hline : Text.IsOneLine line) (depth : Nat) :
    ∀ l ∈ writtenLines depth (guardedBy condition line), Text.IsOneLine l := by
  have hbody : ∀ l ∈ writtenLines depth [.line line], Text.IsOneLine l :=
    List.forall_mem_singleton.mpr (Writer.isOneLine_lineBody hline)
  cases condition with
  | none => exact hbody
  | some text =>
    have htext := Text.isOneLine_append.mpr ⟨(by decide : Text.IsOneLine "#if "), hcondition text rfl⟩
    rw [guardedBy, writtenLines_guarded]
    exact List.forall_mem_append.mpr
      ⟨List.forall_mem_cons.mpr ⟨Writer.isOneLine_lineBody htext, hbody⟩,
        List.forall_mem_singleton.mpr (Writer.isOneLine_lineBody (by decide))⟩

theorem lineRole_verbatim (depth : Nat) (text : String) :
    lineRole (lineBody depth (Directive.ifTrue (.verbatim text)).text) =
      .opens (words text.toList) := by
  rw [lineRole_directive]
  rfl

theorem lineRole_endIf (depth : Nat) : lineRole (lineBody depth Directive.endIf.text) = .closes := by
  rw [lineRole_directive]
  rfl

/-- A line under a condition without a value stays with its condition. -/
theorem isKept_guardedBy (hcondition : ∀ s ∈ condition, Text.IsOneLine s)
    (hvalue : ∀ s ∈ condition, wordsValue known (words s.toList) = none) (hline : IsPlain line) :
    IsKept known (guardedBy condition line) where
  isOneLine := isOneLine_guardedBy hcondition hline.1
  yields depth := by
    have hbody : Yields lineRole (wordsValue known) (writtenLines depth [.line line]) _ :=
      (LeavesLines.line hline).yields depth
    cases condition with
    | none => exact hbody
    | some text =>
      rw [guardedBy, writtenLines_guarded]
      exact yields_kept (lineRole_verbatim depth text) (hvalue text rfl)
        (StaysInside.of_yields hbody) (lineRole_endIf depth)

/-- A line under a condition of a document: the condition has a value or not, and either way
what it opens is closed. -/
theorem leavesLines_guardedBy (hcondition : ∀ s ∈ condition, Text.IsOneLine s)
    (hline : IsPlain line) :
    LeavesLines known (guardedBy condition line) fun depth =>
      resolve lineRole (wordsValue known) (writtenLines depth (guardedBy condition line)) where
  isOneLine := isOneLine_guardedBy hcondition hline.1
  yields depth := by
    by_cases hvalue : ∀ s ∈ condition, wordsValue known (words s.toList) = none
    · have hkept := (isKept_guardedBy hcondition hvalue hline).yields depth
      exact hkept.resolve_eq.symm ▸ hkept
    · push Not at hvalue
      obtain ⟨text, rfl, hvalue⟩ := hvalue
      obtain ⟨holds, hvalue⟩ := Option.ne_none_iff_exists'.mp hvalue
      rw [guardedBy, writtenLines_guarded]
      have hleft := yields_single (lineRole_verbatim depth text) hvalue
        ((LeavesLines.line hline).yields depth) (lineRole_endIf depth)
      exact hleft.resolve_eq.symm ▸ hleft

end Guarded

theorem getLast?_guarded (c : Condition) (body : List Code) :
    (writtenLines 0 (guarded c body)).getLast? = some Directive.endIf.text := by
  rw [writtenLines_guarded, List.getLast?_concat, Writer.lineBody_zero]

theorem getLast?_guardedBy {condition : Option String} {line : String} (hne : line ≠ "") :
    (writtenLines 0 (guardedBy condition line)).getLast? ≠ some "" := by
  cases condition with
  | none => simpa [guardedBy, writtenLines, writtenLine] using hne
  | some text =>
    rw [guardedBy, getLast?_guarded]
    simp [Directive.text]

theorem writtenLines_guardedBy_ne_nil {condition : Option String} {line : String} :
    writtenLines 0 (guardedBy condition line) ≠ [] := by
  cases condition <;> exact List.cons_ne_nil _ _

end Code

/-! ### Members of structs -/

namespace FieldDescriptor

variable {d : FieldDescriptor} {count index : Nat}

/-- No string of a member breaks or directs a line.  The guard stands in a directive, so it
only must not break it. -/
structure HasPlainStrings (d : FieldDescriptor) : Prop where
  name : IsPlain d.name
  type : ∀ s ∈ d.type, IsPlain s
  semantic : ∀ s ∈ d.semantic, IsPlain s
  define : ∀ s ∈ d.define, IsPlain s
  preprocessor : ∀ s ∈ d.preprocessor, Text.IsOneLine s

instance (d : FieldDescriptor) : Decidable d.HasPlainStrings :=
  decidable_of_iff
    (IsPlain d.name ∧ (∀ s ∈ d.type, IsPlain s) ∧ (∀ s ∈ d.semantic, IsPlain s) ∧
      (∀ s ∈ d.define, IsPlain s) ∧ ∀ s ∈ d.preprocessor, Text.IsOneLine s)
    ⟨fun h => ⟨h.1, h.2.1, h.2.2.1, h.2.2.2.1, h.2.2.2.2⟩, fun h => ⟨h.1, h.2, h.3, h.4, h.5⟩⟩

theorem isPlain_declaration (h : d.HasPlainStrings) : IsPlain d.declaration := by
  have htype : IsPlain (resolvePrecision (d.type.getD "float4")) := by
    refine IsPlain.resolvePrecision ?_
    cases htype : d.type with
    | none => decide
    | some type => exact h.type type htype
  unfold declaration
  cases hsemantic : d.semantic with
  | none =>
    have hname : lineRole (d.name ++ ";") = .text :=
      lineRole_append h.name.2 rfl (by decide) (by decide)
    refine ⟨?_, lineRole_append_blank (by simp) htype.2 hname⟩
    simp only [Text.isOneLine_append]
    exact ⟨⟨⟨htype.1, by decide⟩, h.name.1⟩, by decide⟩
  | some semantic =>
    have hcolon : (": " ++ semantic ++ ";").toList.head? = some ':' := by simp
    have hrest : lineRole (": " ++ semantic ++ ";") = .text := by
      simpa only [Writer.lineBody_zero] using lineRole_eq_text 0 hcolon (by decide) (by decide)
    have hname : lineRole (d.name ++ " : " ++ semantic ++ ";") = .text :=
      lineRole_append_blank (by simp) h.name.2 hrest
    refine ⟨?_, lineRole_append_blank (by simp) htype.2 hname⟩
    simp only [Text.isOneLine_append]
    exact ⟨⟨⟨⟨⟨htype.1, by decide⟩, h.name.1⟩, by decide⟩, (h.semantic semantic hsemantic).1⟩,
      by decide⟩

theorem declaration_ne_empty (d : FieldDescriptor) : d.declaration ≠ "" := by
  intro hempty
  have hchars := congrArg String.toList hempty
  unfold declaration at hchars
  cases hsemantic : d.semantic <;> simp [hsemantic] at hchars

/-- The code of a member under its own guard. -/
def guardedCode (d : FieldDescriptor) : List Code := Code.guardedBy d.preprocessor d.declaration

/-- What is left of a member and its guard. -/
def memberLines (known : String → Option Bool) (d : FieldDescriptor) (depth : Nat) :
    List String :=
  resolve lineRole (wordsValue known) (Code.writtenLines depth d.guardedCode)

theorem leavesLines_guardedCode {known : String → Option Bool} (h : d.HasPlainStrings) :
    Code.LeavesLines known d.guardedCode (d.memberLines known) :=
  Code.leavesLines_guardedBy h.preprocessor (isPlain_declaration h)

/-- The text that a member stands for has the lines of its code. -/
theorem writtenLines_memberCode {a : Activity} (h : d.HasPlainStrings) (ha : a.IsSpread count)
    (depth : Nat) :
    Code.writtenLines depth (d.memberCode a) =
      Code.writtenLines depth (Code.inActive a d.guardedCode) := by
  have hguarded : Code.LeavesLines (knownIn count 0) d.guardedCode _ := leavesLines_guardedCode h
  have hactive := hguarded.inActive ha
  have hlast : (Code.writtenLines 0 d.guardedCode).getLast? ≠ some "" :=
    Code.getLast?_guardedBy d.declaration_ne_empty
  cases a with
  | always => exact Code.writtenLines_text depth (hactive.isOneLine 0) hlast
  | never => rfl
  | permutations indices =>
    have hne : Code.writtenLines 0 d.guardedCode ≠ [] := Code.writtenLines_guardedBy_ne_nil
    -- the text of the member stands as a single line under the condition
    have htext : Code.text (Code.whereActive (.permutations indices) d.memberText) =
        Code.text (Code.inActive (.permutations indices) d.guardedCode) :=
      Code.text_guarded_line _ hne
    rw [memberCode, htext]
    refine Code.writtenLines_text depth (hactive.isOneLine 0) ?_
    rw [Code.inActive, Code.getLast?_guarded]
    simp [Directive.text]

/-- **What is left of a member** of a struct in a permutation: its lines where it is active. -/
theorem leavesLines_member {a : Activity} (h : d.HasPlainStrings) (ha : a.IsSpread count) :
    Code.LeavesLines (knownIn count index) (d.memberCode a) fun depth =>
      if a.IsIn index then d.memberLines (knownIn count index) depth else [] :=
  ((leavesLines_guardedCode h).inActive ha).congr (writtenLines_memberCode h ha)

end FieldDescriptor
end MaterialShader
