import MaterialShader.Field.Basic
import MaterialShader.Text.Blank
import MaterialShader.Text.WordChar

/-!
# Lines of a template

A line of a template is one of three.  A line `$Tag.name: rest` keeps `rest`, with
the blanks in front of the dollar sign, where the field is active; what it keeps is a
line again.  A line `$include("path")` stands for a file.  Any other line is text, in
which tokens `$splice(Name)` stand for sections.

## Main definitions

* `predicate?`, `includePath?`, `tokenAt?` — recognising the three forms.
* `Piece`, `pieces` — a line of text cut at its tokens.
* `TemplateLine`, `TemplateLine.parse` — the lines.
-/

namespace MaterialShader
namespace Template

open Text (isBlank isWordChar leadingBlanks)

/-! ### Lines under a field -/

/-- A character of a field's name in a template. -/
def isFieldChar (c : Char) : Bool := isWordChar c || c == '.'

/-- A character that a field's name may start with. -/
def isFieldStart (c : Char) : Bool := c.isAlpha || c == '_'

/-- Words with points between them: from here on a word has begun, or has to begin
where `begun` says it has not; `pointed` says that a point has been met. -/
def areWords (begun pointed : Bool) : List Char → Bool
  | [] => begun && pointed
  | c :: rest => if c = '.' then begun && areWords false true rest else areWords true pointed rest

/-- A field's name: at least two words with points between them, the first of which
starts with an ASCII letter or an underscore. -/
def isFieldName (name : List Char) : Bool :=
  (name.head?.map isFieldStart).getD false && areWords false false name

/-- A text without the blank it may start with. -/
def dropBlank : List Char → List Char
  | c :: rest => if isBlank c then rest else c :: rest
  | [] => []

theorem length_dropBlank_le (cs : List Char) : (dropBlank cs).length ≤ cs.length := by
  cases cs with
  | nil => simp [dropBlank]
  | cons c rest =>
    simp only [dropBlank]
    split <;> simp

/-- The name and the rest of what follows the dollar sign of a line under a field. -/
def predicateBody? (body : List Char) : Option (List Char × List Char) :=
  match body.dropWhile isFieldChar with
  | ':' :: rest =>
      if isFieldName (body.takeWhile isFieldChar) then
        some (body.takeWhile isFieldChar, dropBlank rest)
      else none
  | _ => none

/-- The blanks in front of a line under a field, the name of the field, and the
rest. -/
def predicate? (line : List Char) : Option (List Char × List Char × List Char) :=
  match line.dropWhile isBlank with
  | '$' :: body => (predicateBody? body).map fun p => (leadingBlanks line, p)
  | _ => none

theorem length_predicateBody? {body name rest : List Char}
    (h : predicateBody? body = some (name, rest)) : rest.length < body.length := by
  unfold predicateBody? at h
  split at h
  · next rest' heq =>
    split at h
    · injection h with h
      injection h with _ hrest
      have hlen := congrArg List.length
        (List.takeWhile_append_dropWhile (p := isFieldChar) (l := body))
      rw [heq, List.length_append, List.length_cons] at hlen
      have := length_dropBlank_le rest'
      rw [← hrest]
      omega
    · simp at h
  · simp at h

/-- What a line under a field keeps is shorter than the line. -/
theorem length_predicate? {line lead name rest : List Char}
    (h : predicate? line = some (lead, name, rest)) :
    (lead ++ rest).length < line.length := by
  unfold predicate? at h
  split at h
  · next body heq =>
    obtain ⟨⟨name', rest'⟩, hbody, hp⟩ := Option.map_eq_some_iff.mp h
    injection hp with hlead hp
    injection hp with _ hrest
    subst hlead
    subst hrest
    have hlen := congrArg List.length
      (List.takeWhile_append_dropWhile (p := isBlank) (l := line))
    rw [heq, List.length_append, List.length_cons] at hlen
    have := length_predicateBody? hbody
    rw [List.length_append, leadingBlanks]
    omega
  · simp at h

/-! ### Includes -/

/-- A text without the characters it starts with. -/
def dropPrefix? : List Char → List Char → Option (List Char)
  | [], cs => some cs
  | p :: ps, c :: cs => if p = c then dropPrefix? ps cs else none
  | _ :: _, [] => none

/-- The path of an include line; behind the closing parenthesis only blanks may
follow. -/
def includePath? (line : List Char) : Option String := do
  let body ← dropPrefix? "$include(\"".toList (line.dropWhile isBlank)
  let rest ← dropPrefix? "\")".toList (body.dropWhile (· != '"'))
  if rest.all isBlank then some (String.ofList (body.takeWhile (· != '"'))) else none

/-! ### Tokens -/

/-- What a token starts with. -/
def tokenStart : List Char := "$splice(".toList

/-- The name of the token that a text starts with. -/
def tokenAt? (cs : List Char) : Option (List Char) := do
  let body ← dropPrefix? tokenStart cs
  let _ ← dropPrefix? [')'] (body.dropWhile isWordChar)
  if (body.takeWhile isWordChar).isEmpty then none else some (body.takeWhile isWordChar)

/-- A piece of a line of text. -/
inductive Piece where
  /-- A character that is kept. -/
  | char (c : Char) : Piece
  | token (name : String) : Piece
  deriving DecidableEq, Repr, Inhabited

/-- The pieces of a text, of which `skip` characters belong to the token before. -/
def piecesFrom : Nat → List Char → List Piece
  | _, [] => []
  | skip + 1, _ :: rest => piecesFrom skip rest
  | 0, c :: rest =>
      match tokenAt? (c :: rest) with
      | some name =>
          .token (String.ofList name) :: piecesFrom (tokenStart.length + name.length) rest
      | none => .char c :: piecesFrom 0 rest

/-- The pieces of a line of text, cut at its tokens from left to right. -/
def pieces (line : List Char) : List Piece := piecesFrom 0 line

end Template

/-! ### Lines -/

/-- A line of a template. -/
inductive TemplateLine where
  /-- A line under a field: the blanks in front, the field, what is kept, and what is
  kept as a line together with the blanks. -/
  | guarded (lead : String) (field : Field) (rest : String) (inner : TemplateLine) : TemplateLine
  /-- An include: the blanks in front and the path. -/
  | included (lead : String) (path : String) : TemplateLine
  /-- Text: the blanks in front, and all pieces. -/
  | text (lead : String) (pieces : List Template.Piece) : TemplateLine
  deriving Repr, Inhabited

/-- The line that characters spell out. -/
def TemplateLine.parse (line : List Char) : TemplateLine :=
  match _h : Template.predicate? line with
  | some (lead, name, rest) =>
      .guarded (String.ofList lead) ⟨String.ofList name⟩ (String.ofList rest)
        (parse (lead ++ rest))
  | none =>
      let lead := String.ofList (Text.leadingBlanks line)
      match Template.includePath? line with
      | some path => .included lead path
      | none => .text lead (Template.pieces line)
termination_by line.length
decreasing_by exact Template.length_predicate? _h

end MaterialShader
