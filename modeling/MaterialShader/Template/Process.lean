import MaterialShader.Error
import MaterialShader.Field.Active
import MaterialShader.FileLookup
import MaterialShader.Keyword.Permutation
import MaterialShader.Template.Line
import MaterialShader.Text.Lines

/-!
# Processing templates

A template is processed line by line.  Tokens are replaced by sections, whose later
lines are indented like the line of the token.  Lines under a field are kept where
the field is active, in a branch if that is in some permutations only.  An included
file is processed in place of its line and indented like it.

## Main definitions

* `Sections` — the texts that tokens stand for.
* `Template.Context`, `Template.Progress` — what processing depends on, and what it
  has written.
* `Template.processLine`, `Template.processFile` — one line and one file.
* `processTemplate` — a template with everything it includes.
-/

namespace MaterialShader

/-! ### Sections -/

/-- The texts that tokens stand for, in the order in which they were first added. -/
abbrev Sections := List (String × String)

namespace Sections

/-- The sections with a text for a name, which replaces an earlier one where it
stands. -/
def set (s : Sections) (name text : String) : Sections :=
  if (s.map (·.1)).contains name then s.map fun p => if p.1 == name then (name, text) else p
  else s ++ [(name, text)]

/-- The sections with texts for several names, in order. -/
def ofList (texts : List (String × String)) : Sections :=
  texts.foldl (fun s p => s.set p.1 p.2) []

/-- The text for a name. -/
def get? (s : Sections) (name : String) : Option String := s.lookup name

end Sections

namespace Template

/-! ### State -/

/-- What processing depends on. -/
structure Context where
  store : FileLookup
  /-- The directory of included files. -/
  sharedDir : Path
  /-- The texts that tokens stand for. -/
  sections : Sections
  active : ActiveFields
  /-- Lines whose field is nowhere active are kept as comments. -/
  debug : Bool

/-- What has been written, and the files it came from in order of first use. -/
structure Progress where
  text : String
  /-- The files. -/
  dependencies : List Path
  deriving DecidableEq, Repr, Inhabited

namespace Progress

/-- More text. -/
def write (p : Progress) (s : String) : Progress := { p with text := p.text ++ s }

/-- What has been written ends with a line feed. -/
def endsLine (p : Progress) : Bool := p.text.toList.getLast? == some '\n'

/-- A line feed unless there is one. -/
def finishLine (p : Progress) : Progress := if p.endsLine then p else p.write "\n"

/-- One more file, unless it is among the files under any spelling. -/
def depend (p : Progress) (path : Path) : Progress :=
  if path.isAmong p.dependencies then p
  else { p with dependencies := p.dependencies ++ [path] }

end Progress

/-! ### Lines of text -/

/-- A text whose lines after the first are indented, unless they are empty. -/
def indentContinuation (indent : List Char) : List Char → List Char
  | [] => []
  | c :: rest =>
      if c = '\n' then
        let blanks :=
          match rest with
          | [] => []
          | d :: _ => if d = '\n' then [] else indent
        '\n' :: (blanks ++ indentContinuation indent rest)
      else c :: indentContinuation indent rest

/-- The characters of a line of text with its tokens replaced; `indent` goes in front
of the later lines of what replaces them. -/
def expand (ctx : Context) (file : Path) (indent : List Char) :
    List Piece → Except GenerationError (List Char)
  | [] => .ok []
  | .char c :: rest => do return c :: (← expand ctx file indent rest)
  | .token name :: rest =>
      match ctx.sections.get? name with
      | none => .error (.missingSpliceToken name file)
      | some text => do
          return indentContinuation indent text.toList ++ (← expand ctx file indent rest)

/-! ### Lines -/

/-- The progress after a line of a file.  What a file includes is processed by
`processIncluded`. -/
def processLine (ctx : Context) (file : Path)
    (processIncluded : Path → String → Progress → Except GenerationError Progress)
    (indent : String) (ending : Text.Ending) :
    TemplateLine → Progress → Except GenerationError Progress
  | .guarded lead field rest inner, p =>
      match ctx.active.activity field with
      | .always => processLine ctx file processIncluded indent ending inner p
      | .permutations indices => do
          let condition := Shading.Directive.ifTrue (permutationsCondition indices)
          let p := p.write (indent ++ lead ++ condition.text ++ ending.orLineFeed.text)
          let p ← processLine ctx file processIncluded indent ending inner p
          return p.finishLine.write (indent ++ lead ++ Shading.Directive.endIf.text ++ ending.text)
      | .never =>
          .ok (if ctx.debug then p.write (indent ++ lead ++ "// " ++ rest ++ ending.text) else p)
  | .included lead path, p => do
      let p ← processIncluded (ctx.sharedDir.join ⟨path⟩) (indent ++ lead) p
      -- the line that includes a file ends where the file does not end its last line
      return if p.text.isEmpty || p.endsLine then p else p.write ending.text
  | .text lead pieces, p => do
      let chars ← expand ctx file (indent ++ lead).toList pieces
      return p.write
        ((if chars.isEmpty then "" else indent ++ String.ofList chars) ++ ending.text)

/-! ### Files -/

/-- The progress after a file, where `opened` are the files whose lines are being
processed.  These are different files that includes name, so `fuel` does not run out
before one of them is met again if it starts above the number of lines in all
files. -/
def processFile (ctx : Context) : Nat → List Path → Path → String → Progress →
    Except GenerationError Progress
  | 0, _, path, _, _ => .error (.recursiveInclude path path)
  | fuel + 1, opened, path, indent, p =>
      match ctx.store.readText? path with
      | none => .error (.unreadableTemplate path)
      | some text =>
          let processIncluded (target : Path) (indent : String) (p : Progress) :
              Except GenerationError Progress :=
            -- whether a file includes itself is asked before whether it is there
            if target.isAmong (path :: opened) then .error (.recursiveInclude target path)
            else if !ctx.store.isFile target then .error (.includeNotFound target path)
            else processFile ctx fuel (path :: opened) target indent p
          (Text.split text).foldlM
            (fun p line =>
              processLine ctx path processIncluded indent line.ending
                (TemplateLine.parse line.body) p)
            (p.depend path)

end Template

/-- What processing a template results in: the text, and the template and the files
it includes in order of first use.  A template that is no file results in nothing. -/
def processTemplate (ctx : Template.Context) (path : Path) :
    Except GenerationError (Option Template.Progress) :=
  if !ctx.store.isFile path then .ok none
  else do
    return some (← Template.processFile ctx (ctx.store.lineCount + 2) [] path "" ⟨"", []⟩)

end MaterialShader
