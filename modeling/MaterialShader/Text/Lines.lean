/-!
# Lines and their terminators

A line ends at a line feed; a carriage return just before that line feed belongs
to the terminator.  A carriage return anywhere else is text.  The last line may
have no terminator, and then it is a line only if it holds a character.

## Main definitions

* `Ending`, `Line` — a line body with the terminator it was read with.
* `split` — the lines of a text.
* `bodies` — the line bodies alone.
* `joinLines` — line bodies put together with line feeds between them.
-/

namespace MaterialShader
namespace Text

/-- How a line ends. -/
inductive Ending where
  /-- The text ends here. -/
  | none : Ending
  /-- A line feed. -/
  | lf : Ending
  /-- A carriage return and a line feed. -/
  | crlf : Ending
  deriving DecidableEq, Repr, Inhabited

/-- The characters of a terminator. -/
def Ending.text : Ending → String
  | .none => ""
  | .lf => "\n"
  | .crlf => "\r\n"

/-- The terminator of a line added beside a line with this one: the same, or a
line feed where there is none. -/
def Ending.orLineFeed : Ending → Ending
  | .none => .lf
  | e => e

/-- A line of a text. -/
structure Line where
  /-- The characters before the terminator. -/
  body : List Char
  /-- The terminator. -/
  ending : Ending
  deriving DecidableEq, Repr, Inhabited

/-- The line that a line feed closes, from its characters in reverse. -/
def closeLine : List Char → Line
  | '\r' :: rest => ⟨rest.reverse, .crlf⟩
  | rest => ⟨rest.reverse, .lf⟩

/-- The lines of a text whose first line has begun with `begun`, held in reverse. -/
def splitFrom (begun : List Char) : List Char → List Line
  | [] => if begun.isEmpty then [] else [⟨begun.reverse, .none⟩]
  | c :: rest =>
      if c = '\n' then closeLine begun :: splitFrom [] rest
      else splitFrom (c :: begun) rest

/-- The lines of a text. -/
def split (s : String) : List Line := splitFrom [] s.toList

/-- The line bodies of a text. -/
def bodies (s : String) : List String := (split s).map fun l => String.ofList l.body

/-- Lines joined by line feeds, with none after the last. -/
def joinLines (lines : List String) : String := "\n".intercalate lines

/-- The characters of a line, terminator included. -/
def Line.chars (l : Line) : List Char := l.body ++ l.ending.text.toList

theorem chars_closeLine (begun : List Char) :
    (closeLine begun).chars = begun.reverse ++ ['\n'] := by
  unfold closeLine
  split <;> simp [Line.chars, Ending.text]

/-- No character of a text is lost or moved by splitting it into lines. -/
theorem flatMap_chars_splitFrom (begun cs : List Char) :
    (splitFrom begun cs).flatMap Line.chars = begun.reverse ++ cs := by
  induction cs generalizing begun with
  | nil =>
    unfold splitFrom
    cases begun <;> simp [Line.chars, Ending.text]
  | cons c rest ih =>
    unfold splitFrom
    by_cases h : c = '\n'
    · simp [h, ih, chars_closeLine]
    · simp [h, ih]

end Text
end MaterialShader
