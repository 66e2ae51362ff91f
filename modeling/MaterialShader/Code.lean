import MaterialShader.Shading.Directive
import MaterialShader.Text.Lines

/-!
# Code

Generated code is a nested program of lines, indented bodies and blocks in
braces.  A writer carries it out: it holds the text so far and the current depth,
every line gets four spaces for each level, and an empty line none.

## Main definitions

* `Writer` — the text so far and the depth, with the operations that add to it.
* `Code`, `Code.run` — the programs and their execution on a writer.
* `Code.text` — the text of a program, its last line without terminator.
* `Code.guarded` — code inside one branch.
* `Code.trace` — the text after every step of a program.
-/

namespace MaterialShader

/-! ### Writers -/

/-- The text so far and the current depth. -/
structure Writer where
  /-- The text so far. -/
  text : String
  /-- How many levels a line is indented. -/
  depth : Nat
  deriving DecidableEq, Repr, Inhabited

namespace Writer

/-- A writer with no text. -/
def start (depth : Nat) : Writer := ⟨"", depth⟩

/-- The blanks in front of a line. -/
def indentation (depth : Nat) : String := String.ofList (List.replicate (4 * depth) ' ')

/-- The text of one line at a depth. -/
def lineText (depth : Nat) (line : String) : String :=
  if line.isEmpty then "\n" else indentation depth ++ line ++ "\n"

/-- Writes one line. -/
def line (w : Writer) (s : String) : Writer := { w with text := w.text ++ lineText w.depth s }

/-- Writes the lines of a text, each at the current depth. -/
def lines (w : Writer) (s : String) : Writer := (Text.bodies s).foldl line w

/-- Ends a line without writing one. -/
def newline (w : Writer) : Writer := { w with text := w.text ++ "\n" }

/-- One level deeper. -/
def deeper (w : Writer) : Writer := { w with depth := w.depth + 1 }

/-- One level back. -/
def shallower (w : Writer) : Writer := { w with depth := w.depth - 1 }

@[simp] theorem depth_line (w : Writer) (s : String) : (w.line s).depth = w.depth := rfl

@[simp] theorem depth_newline (w : Writer) : w.newline.depth = w.depth := rfl

@[simp] theorem depth_deeper (w : Writer) : w.deeper.depth = w.depth + 1 := rfl

@[simp] theorem depth_shallower (w : Writer) : w.shallower.depth = w.depth - 1 := rfl

@[simp] theorem text_deeper (w : Writer) : w.deeper.text = w.text := rfl

@[simp] theorem text_shallower (w : Writer) : w.shallower.text = w.text := rfl

end Writer

/-! ### Programs -/

/-- What a body is put in. -/
inductive Scope where
  /-- Nothing: the body is indented. -/
  | indent : Scope
  /-- Braces. -/
  | block : Scope
  /-- Braces, a semicolon after the closing one. -/
  | declaration : Scope
  deriving DecidableEq, Repr, Inhabited

/-- The line before a body. -/
def Scope.opening? : Scope → Option String
  | .indent => none
  | .block => some "\x7b"
  | .declaration => some "\x7b"

/-- The line after a body. -/
def Scope.closing? : Scope → Option String
  | .indent => none
  | .block => some "\x7d"
  | .declaration => some "\x7d;"

/-- One step of a program. -/
inductive Code where
  | line (text : String) : Code
  /-- A preprocessor line. -/
  | directive (d : Shading.Directive) : Code
  /-- The lines of a text. -/
  | lines (text : String) : Code
  /-- The end of a line. -/
  | newline : Code
  /-- A body one level deeper, in what the scope puts around it. -/
  | nested (scope : Scope) (body : List Code) : Code
  deriving Repr, Inhabited

namespace Code

/-- The writer after the line, if any, that stands before or after a body. -/
def writeEdge (w : Writer) : Option String → Writer
  | none => w
  | some s => w.line s

mutual

/-- The writer after one step. -/
def run (w : Writer) : Code → Writer
  | .line s => w.line s
  | .directive d => w.line d.text
  | .lines s => w.lines s
  | .newline => w.newline
  | .nested scope body =>
      writeEdge (runAll (writeEdge w scope.opening?).deeper body).shallower scope.closing?

/-- The writer after the steps of a program. -/
def runAll (w : Writer) : List Code → Writer
  | [] => w
  | c :: rest => runAll (run w c) rest

end

/-- The text of a program with every line terminated. -/
def fullText (depth : Nat) (program : List Code) : String := (runAll (.start depth) program).text

/-- A text without the line feed it may end with. -/
def dropFinalNewline (s : String) : String :=
  match s.toList.reverse with
  | '\n' :: rest => String.ofList rest.reverse
  | _ => s

/-- The text of a program, its last line without terminator. -/
def text (program : List Code) : String := dropFinalNewline (fullText 0 program)

/-- Lines of code. -/
def ofLines (lines : List String) : List Code := lines.map .line

/-- Code inside one branch. -/
def guarded (c : Shading.Condition) (body : List Code) : List Code :=
  .directive (.ifTrue c) :: body ++ [.directive .endIf]

/-! ### Traces -/

mutual

/-- The writer after one step, and the text after it and after every step inside
it, which come first; the texts are in reverse. -/
def traceStep (state : Writer × List String) : Code → Writer × List String
  | .nested scope body =>
      let (w, texts) := traceSteps ((writeEdge state.1 scope.opening?).deeper, state.2) body
      let w := writeEdge w.shallower scope.closing?
      (w, w.text :: texts)
  | c =>
      let w := run state.1 c
      (w, w.text :: state.2)

/-- The writer after the steps of a program, and the text after each of them, in
reverse. -/
def traceSteps (state : Writer × List String) : List Code → Writer × List String
  | [] => state
  | c :: rest => traceSteps (traceStep state c) rest

end

/-- The text after every step of a program at a depth. -/
def trace (depth : Nat) (program : List Code) : List String :=
  (traceSteps (.start depth, []) program).2.reverse

end Code
end MaterialShader
