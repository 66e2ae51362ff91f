import MaterialShader.Proofs.SplicedSection

/-!
# Lines behind blanks

Blanks in front of a line of a template change nothing but its indentation.  So a line that is
processed with an indentation writes what it writes with the indentation in front of it, except
that a line of which nothing is left is not indented in the first case and is in the second.  The
two texts look alike: they have the same lines where a line of blanks counts as empty.

## Main definitions

* `Text.visibleLines` — the lines of a text, where lines of blanks count as empty.
* `TemplateLine.behind` — a line behind blanks.
* `Template.Carries` — what is written keeps a relation between two texts.

## Main results

* `Template.parse_append` — blanks in front of a line are read as its indentation.
* `Template.alike_processLine` — a line and the same line behind its indentation are processed
  alike.
-/

namespace MaterialShader

/-! ### Texts that look alike -/

namespace Text

/-- The lines of a text, between its line feeds, where a line of blanks counts as empty. -/
def visibleLines (s : String) : List String :=
  (separated s).map fun line => if isAllBlank line then "" else line

variable {s t indent : String}

/-- At the start of a line a text adds its lines, the first of which takes the place of the empty
line that was begun. -/
theorem visibleLines_append (hs : IsLineStart s) (t : String) :
    visibleLines (s ++ t) = (visibleLines s).dropLast ++ visibleLines t := by
  obtain rfl | hlast := hs
  · rw [String.empty_append]
    rfl
  · obtain ⟨cs, hcs⟩ := List.getLast?_eq_some_iff.mp hlast
    unfold visibleLines separated
    rw [String.toList_append, hcs, List.append_assoc, List.singleton_append,
      List.splitOn_append_cons_self, List.splitOn_append_cons_self]
    simp

/-- A line of blanks looks empty. -/
theorem visibleLines_of_isIndentation (h : IsIndentation indent) {e : Ending} (he : e ≠ .none) :
    visibleLines (indent ++ e.text) = ["", ""] := by
  have hline : ∀ line : List Char, (∀ c ∈ line, isBlank c = true) → '\n' ∉ line →
      visibleLines (String.ofList (line ++ ['\n'])) = ["", ""] := by
    intro line hblanks hfeed
    have hblank : isAllBlank (String.ofList line) = true := by
      rw [isAllBlank, String.toList_ofList]
      exact List.all_eq_true.mpr hblanks
    have hempty : isAllBlank "" = true := rfl
    rw [visibleLines, separated, String.toList_ofList, List.splitOn_append_cons_self,
      List.splitOn_eq_singleton hfeed]
    simp [hblank]
  have hblanks : ∀ c ∈ indent.toList, isBlank c = true := fun c hc => (h c hc).1
  have hfeed : '\n' ∉ indent.toList := fun hmem => (h _ hmem).2 rfl
  cases e with
  | none => exact absurd rfl he
  | lf =>
    rw [← hline indent.toList hblanks hfeed]
    simp [Ending.text]
  | crlf =>
    have hreturn : ∀ c ∈ indent.toList ++ ['\r'], isBlank c = true :=
      List.forall_mem_append.mpr ⟨hblanks, List.forall_mem_singleton.mpr (by decide)⟩
    rw [← hline (indent.toList ++ ['\r']) hreturn (by simpa using hfeed)]
    simp [Ending.text]

/-- A text at whose end a line starts is empty exactly if it looks so. -/
theorem eq_empty_iff_of_visibleLines (hs : IsLineStart s) (ht : IsLineStart t)
    (h : visibleLines s = visibleLines t) : s = "" ↔ t = "" := by
  have hlength : ∀ {s}, IsLineStart s → (s = "" ↔ (visibleLines s).length = 1) := by
    intro s hs
    obtain rfl | hlast := hs
    · exact ⟨fun _ => rfl, fun _ => rfl⟩
    · obtain ⟨cs, hcs⟩ := List.getLast?_eq_some_iff.mp hlast
      have hpos := List.length_pos_of_ne_nil (List.splitOn_ne_nil '\n' cs)
      have hne : s ≠ "" := by
        rintro rfl
        exact absurd hcs (by simp)
      rw [visibleLines, separated, hcs, List.splitOn_append_cons_self]
      simp [hne]
  rw [hlength hs, hlength ht, h]

end Text

/-! ### Lines behind blanks -/

/-- A line behind blanks. -/
def TemplateLine.behind (blanks : String) : TemplateLine → TemplateLine
  | .guarded lead field rest inner => .guarded (blanks ++ lead) field rest (inner.behind blanks)
  | .included lead path => .included (blanks ++ lead) path
  | .text lead pieces => .text (blanks ++ lead) (blanks.toList.map .char ++ pieces)

namespace Template

open Text (isBlank)

variable {blanks : List Char}

theorem predicate?_append (h : ∀ c ∈ blanks, isBlank c = true) (line : List Char) :
    predicate? (blanks ++ line) =
      (predicate? line).map fun p => (blanks ++ p.1, p.2) := by
  have hlead : Text.leadingBlanks (blanks ++ line) = blanks ++ Text.leadingBlanks line := by
    rw [Text.leadingBlanks, List.takeWhile_append_of_pos h]
    rfl
  unfold predicate?
  rw [List.dropWhile_append_of_pos h, hlead]
  split
  · rw [Option.map_map]
    rfl
  · rfl

theorem includePath?_append (h : ∀ c ∈ blanks, isBlank c = true) (line : List Char) :
    includePath? (blanks ++ line) = includePath? line := by
  rw [includePath?, List.dropWhile_append_of_pos h]
  rfl

/-- **Blanks in front of a line** are read as its indentation. -/
theorem parse_append (h : ∀ c ∈ blanks, isBlank c = true) (line : List Char) :
    TemplateLine.parse (blanks ++ line) =
      (TemplateLine.parse line).behind (String.ofList blanks) := by
  have hlead : ∀ line, Text.leadingBlanks (blanks ++ line) = blanks ++ Text.leadingBlanks line :=
    fun line => List.takeWhile_append_of_pos h
  fun_induction TemplateLine.parse line with
  | case1 line lead name rest hpredicate ih =>
    rw [TemplateLine.parse]
    split
    · next lead' name' rest' heq =>
      rw [predicate?_append h, hpredicate] at heq
      obtain ⟨rfl, rfl, rfl⟩ : blanks ++ lead = lead' ∧ name = name' ∧ rest = rest' := by
        simpa using heq
      rw [List.append_assoc, ih, String.ofList_append]
      rfl
    · next heq =>
      rw [predicate?_append h, hpredicate] at heq
      exact absurd heq (by rintro ⟨⟩)
  | case2 line hpredicate lead path hinclude =>
    rw [TemplateLine.parse]
    split
    · next heq =>
      rw [predicate?_append h, hpredicate] at heq
      exact absurd heq (by rintro ⟨⟩)
    · rw [includePath?_append h, hinclude, hlead, String.ofList_append]
      rfl
  | case3 line hpredicate lead hinclude =>
    rw [TemplateLine.parse]
    split
    · next heq =>
      rw [predicate?_append h, hpredicate] at heq
      exact absurd heq (by rintro ⟨⟩)
    · rw [includePath?_append h, hinclude, hlead, String.ofList_append, pieces_append h]
      simp [TemplateLine.behind, lead]

/-! ### What a line writes -/

open Outcome (Alike)

/-- What a line writes keeps a relation between two texts: the same, or a blank line which has its
indentation in the second text only. -/
structure Carries (indent : String) (ending : Text.Ending) (R : Progress → Progress → Prop) :
    Prop where
  line : ∀ {p q}, R p q → ∀ s, R (p.write (s ++ ending.text)) (q.write (s ++ ending.text))
  directive : ∀ {p q}, R p q → ∀ s,
    R (p.write (s ++ ending.orLineFeed.text)) (q.write (s ++ ending.orLineFeed.text))
  blank : ∀ {p q}, R p q → R (p.write ending.text) (q.write (indent ++ ending.text))
  finishLine : ∀ {p q}, R p q → R p.finishLine q.finishLine

variable {ctx : Context} {file file' : Path} {indent : String} {ending : Text.Ending}

/-- Characters in front of the pieces of a line stay there. -/
theorem alike_expand (ctx : Context) (store : FileLookup) (file file' : Path)
    (indent cs : List Char) (pieces : List Piece) :
    Alike (fun chars chars' => chars' = cs ++ chars) (expand ctx file indent pieces)
      (expand { ctx with store := store } file' indent (cs.map .char ++ pieces)) := by
  induction cs with
  | nil =>
    induction pieces with
    | nil => exact rfl
    | cons piece pieces ih =>
      cases piece with
      | char c =>
        exact ih.bind fun chars chars' hchars => congrArg (c :: ·) hchars
      | token name =>
        rw [expand, List.map_nil, List.nil_append, expand]
        cases ctx.sections.get? name with
        | none => exact trivial
        | some text =>
          exact ih.bind fun chars chars' hchars => congrArg (_ ++ ·) hchars
  | cons c cs ih =>
    rw [← bind_pure (expand ctx file indent pieces)]
    exact ih.bind fun chars chars' hchars => congrArg (c :: ·) hchars

/-- **A line that includes nothing** and the line behind its indentation are processed alike. -/
theorem alike_processLine {R : Progress → Progress → Prop} (hR : Carries indent ending R)
    (store : FileLookup) (file file' : Path)
    {included included' : Path → String → Progress → Except GenerationError Progress}
    {line : TemplateLine} (hline : line.includes = []) {p q : Progress} (h : R p q) :
    Alike R (processLine ctx file included indent ending line p)
      (processLine { ctx with store := store } file' included' "" ending (line.behind indent)
        q) := by
  induction line generalizing p q with
  | guarded lead field rest inner ih =>
    rw [TemplateLine.behind, processLine, processLine]
    dsimp only
    simp only [String.empty_append]
    cases ctx.active.activity field with
    | always => exact ih hline h
    | permutations indices =>
      refine (ih hline (hR.directive h _)).bind fun p q hpq => ?_
      exact hR.line (hR.finishLine hpq) _
    | never =>
      cases ctx.debug with
      | false => exact h
      | true => exact hR.line h _
  | included lead path => exact absurd hline (List.cons_ne_nil _ _)
  | text lead pieces =>
    rw [TemplateLine.behind, processLine, processLine, String.empty_append]
    refine (alike_expand ctx store file file' _ indent.toList pieces).bind ?_
    rintro chars - rfl
    by_cases hchars : chars = []
    · subst hchars
      have hwrites : (if (indent.toList ++ []).isEmpty = true then ""
          else "" ++ String.ofList (indent.toList ++ [])) = indent := by
        rw [List.append_nil, String.empty_append, String.ofList_toList]
        split
        · next hempty => exact (String.toList_eq_nil_iff.mp (List.isEmpty_iff.mp hempty)).symm
        · rfl
      rw [hwrites, List.isEmpty_nil, if_pos rfl, String.empty_append]
      exact hR.blank h
    · have hwrites : (if (indent.toList ++ chars).isEmpty = true then ""
          else "" ++ String.ofList (indent.toList ++ chars)) = indent ++ String.ofList chars := by
        simp [hchars, String.ofList_append]
      rw [hwrites, if_neg (by simpa using hchars)]
      exact hR.line h _

end Template
end MaterialShader
