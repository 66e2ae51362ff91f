/-!
# Blank characters

The characters that count as blank in templates and in generated sections: those
with the Unicode property `White_Space`, which is wider than the six ASCII ones.

## Main definitions

* `isBlank` — the character class.
* `isAllBlank` — a text with nothing to read in it.
* `leadingBlanks` — what a line is indented with.
-/

namespace MaterialShader
namespace Text

/-- A character with the Unicode property `White_Space`. -/
def isBlank (c : Char) : Bool :=
  let n := c.toNat
  (0x09 ≤ n && n ≤ 0x0D) || n == 0x20 || n == 0x85 || n == 0xA0 || n == 0x1680 ||
    (0x2000 ≤ n && n ≤ 0x200A) || n == 0x2028 || n == 0x2029 || n == 0x202F ||
    n == 0x205F || n == 0x3000

/-- A text of blank characters only; the empty text is one. -/
def isAllBlank (s : String) : Bool := s.toList.all isBlank

/-- The blank characters a line starts with. -/
def leadingBlanks (line : List Char) : List Char := line.takeWhile isBlank

/-- The six blank characters of ASCII are blank. -/
example : ['\t', '\n', '\x0b', '\x0c', '\r', ' '].all isBlank = true := by decide

end Text
end MaterialShader
