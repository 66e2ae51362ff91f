import MaterialShader.Json.Document

/-!
# Tokens of a document

A document is cut into tokens by one pass over its characters.  The pass is in a
mode that says what the character at hand continues: nothing, a text, an escape
inside a text, or a run of characters outside quotes that will be a number or one
of the three words.

## Main definitions

* `Token` — the tokens.
* `Piece`, `Piece.decode?` — the content of a text before its escapes are joined.
* `Token.scan?` — the tokens of a text.
-/

namespace MaterialShader
namespace Json

/-- A token of a document. -/
inductive Token where
  /-- Opens an object. -/
  | openRecord : Token
  /-- Closes an object. -/
  | closeRecord : Token
  /-- Opens an array. -/
  | openList : Token
  /-- Closes an array. -/
  | closeList : Token
  /-- Stands between a key and its value. -/
  | colon : Token
  /-- Stands between items and between members. -/
  | comma : Token
  /-- A text in quotes; it is missing when it cannot be read. -/
  | quoted (content : Option String) : Token
  /-- A value outside quotes: a number, a truth value or null. -/
  | bare (value : Json) : Token
  deriving Repr, Inhabited

/-! ### The content of a text -/

/-- A part of a text. -/
inductive Piece where
  /-- A character. -/
  | char (c : Char) : Piece
  /-- A unit of sixteen bits, given by its number. -/
  | unit (n : Nat) : Piece
  deriving DecidableEq, Repr, Inhabited

/-- The first unit of a surrogate pair. -/
def isHighSurrogate (n : Nat) : Bool := 0xD800 ≤ n && n < 0xDC00

/-- The second unit of a surrogate pair. -/
def isLowSurrogate (n : Nat) : Bool := 0xDC00 ≤ n && n < 0xE000

/-- The characters of a text: two units of a surrogate pair are one character, and
a surrogate outside a pair makes the text unreadable. -/
def Piece.decode? : List Piece → Option (List Char)
  | [] => some []
  | .char c :: rest => (decode? rest).map (c :: ·)
  | .unit n :: .unit m :: rest =>
      if isHighSurrogate n then
        if isLowSurrogate m then
          (decode? rest).map (Char.ofNat (0x10000 + (n - 0xD800) * 0x400 + (m - 0xDC00)) :: ·)
        else none
      else if isLowSurrogate n then none
      else (decode? (.unit m :: rest)).map (Char.ofNat n :: ·)
  | .unit n :: rest =>
      if isHighSurrogate n || isLowSurrogate n then none
      else (decode? rest).map (Char.ofNat n :: ·)

/-! ### Scanning -/

/-- What the next character of a document continues. -/
inductive Mode where
  /-- Nothing: a token may start. -/
  | between : Mode
  /-- A run of characters outside quotes, held in reverse. -/
  | bare (run : List Char) : Mode
  /-- A text, its pieces held in reverse. -/
  | quoted (pieces : List Piece) : Mode
  /-- An escape that a backslash has opened in a text. -/
  | escape (pieces : List Piece) : Mode
  /-- An escape by number, of which `left` digits are still to come. -/
  | unit (pieces : List Piece) (left : Nat) (value : Nat) : Mode
  deriving Repr, Inhabited

/-- The blank characters of a document. -/
def isSpace (c : Char) : Bool := c == ' ' || c == '\n' || c == '\r' || c == '\t'

/-- The token of a punctuation character. -/
def punctuation? : Char → Option Token
  | '\x7b' => some .openRecord
  | '\x7d' => some .closeRecord
  | '[' => some .openList
  | ']' => some .closeList
  | ':' => some .colon
  | ',' => some .comma
  | _ => none

/-- The character that a backslash and a letter stand for. -/
def escaped? : Char → Option Char
  | '"' => some '"'
  | '\\' => some '\\'
  | '/' => some '/'
  | 'b' => some '\x08'
  | 'f' => some '\x0c'
  | 'n' => some '\n'
  | 'r' => some '\r'
  | 't' => some '\t'
  | _ => none

/-- The value of a hexadecimal digit. -/
def hexValue? (c : Char) : Option Nat :=
  if c.isDigit then some (c.toNat - '0'.toNat)
  else if 'a' ≤ c ∧ c ≤ 'f' then some (c.toNat - 'a'.toNat + 10)
  else if 'A' ≤ c ∧ c ≤ 'F' then some (c.toNat - 'A'.toNat + 10)
  else none

/-- The value that a run of characters outside quotes spells out. -/
def bareValue? (run : List Char) : Option Json :=
  if run = "null".toList then some .null
  else if run = "true".toList then some (.bool true)
  else if run = "false".toList then some (.bool false)
  else (Decimal.ofChars? run).map .number

/-- The state of the pass: the tokens found, in reverse, and the mode. -/
structure Scanner where
  /-- The tokens found, in reverse. -/
  tokens : List Token
  /-- What the next character continues. -/
  mode : Mode
  deriving Repr, Inhabited

/-- The pass at a character where a token may start. -/
def Scanner.start? (tokens : List Token) (c : Char) : Option Scanner :=
  if isSpace c then some ⟨tokens, .between⟩
  else if c = '"' then some ⟨tokens, .quoted []⟩
  else
    match punctuation? c with
    | some t => some ⟨t :: tokens, .between⟩
    | none => some ⟨tokens, .bare [c]⟩

/-- The pass after one more character. -/
def Scanner.step? (s : Scanner) (c : Char) : Option Scanner :=
  match s.mode with
  | .between => start? s.tokens c
  | .bare run =>
      if isSpace c || c == '"' || (punctuation? c).isSome then
        -- the character that ends the run may start the next token
        (bareValue? run.reverse).bind fun v => start? (.bare v :: s.tokens) c
      else some ⟨s.tokens, .bare (c :: run)⟩
  | .quoted pieces =>
      if c = '"' then
        some ⟨.quoted ((Piece.decode? pieces.reverse).map String.ofList) :: s.tokens, .between⟩
      else if c = '\\' then some ⟨s.tokens, .escape pieces⟩
      else if c.toNat < 0x20 then none
      else some ⟨s.tokens, .quoted (.char c :: pieces)⟩
  | .escape pieces =>
      if c = 'u' then some ⟨s.tokens, .unit pieces 4 0⟩
      else (escaped? c).map fun d => ⟨s.tokens, .quoted (.char d :: pieces)⟩
  | .unit pieces left value =>
      (hexValue? c).map fun d =>
        if left ≤ 1 then ⟨s.tokens, .quoted (.unit (value * 16 + d) :: pieces)⟩
        else ⟨s.tokens, .unit pieces (left - 1) (value * 16 + d)⟩

/-- The tokens found when the text ends. -/
def Scanner.finish? (s : Scanner) : Option (List Token) :=
  match s.mode with
  | .between => some s.tokens.reverse
  | .bare run => (bareValue? run.reverse).map fun v => (.bare v :: s.tokens).reverse
  | _ => none

/-- The tokens of a text. -/
def Token.scan? (s : String) : Option (List Token) :=
  (s.toList.foldlM Scanner.step? ⟨[], .between⟩).bind Scanner.finish?

end Json
end MaterialShader
