import MaterialShader.Number.Binary

/-!
# Decimal literals and the numbers they denote

A number in a document is a decimal literal.  A literal without fraction and
exponent that fits a 64-bit word is a whole number; every other one is read in
the `double` format, by the rule below.

The significand takes the literal's digits as long as it stays below `2 ^ 64`.
From the first digit of the whole part that does not fit on, whole digits only
raise the exponent; from the first digit of the fraction that does not fit on,
fraction digits are dropped.  The significand is then rounded to a double and
multiplied or divided once by a rounded power of ten.  Powers beyond `10 ^ 308`
divide in steps of `10 ^ 308`, and a product out of range is no number.

## Main definitions

* `Decimal`, `Decimal.ofChars?` — a literal and its grammar.
* `Number` — the value of a literal.
* `Decimal.value?` — the rule above.
-/

namespace MaterialShader

/-! ### Literals -/

/-- A decimal literal, its digits as numbers below ten. -/
structure Decimal where
  /-- A minus sign stands in front. -/
  negative : Bool
  /-- The digits before the point. -/
  whole : List Nat
  /-- The digits after the point; a literal without point has none. -/
  fraction : List Nat
  /-- The exponent's sign and digits, the sign `true` for minus. -/
  exponent : Option (Bool × List Nat)
  deriving DecidableEq, Repr, Inhabited

namespace Decimal

/-- The value of a decimal digit. -/
def digitValue (c : Char) : Nat := c.toNat - '0'.toNat

/-- The digits a text starts with, and the rest. -/
def spanDigits (cs : List Char) : List Nat × List Char :=
  ((cs.takeWhile Char.isDigit).map digitValue, cs.dropWhile Char.isDigit)

/-- The sign in front of a literal, and the rest. -/
def minusSign : List Char → Bool × List Char
  | '-' :: rest => (true, rest)
  | rest => (false, rest)

/-- The digits of the whole part: one zero, or digits that start with no zero. -/
def isWholePart : List Nat → Bool
  | [] => false
  | [_] => true
  | d :: _ => d != 0

/-- The fraction of a literal, and the rest; a point needs a digit after it. -/
def fraction? : List Char → Option (List Nat × List Char)
  | '.' :: rest =>
      let (digits, rest) := spanDigits rest
      if digits.isEmpty then none else some (digits, rest)
  | rest => some ([], rest)

/-- The exponent of a literal, which ends it; it needs a digit. -/
def exponent? : List Char → Option (Option (Bool × List Nat))
  | [] => some none
  | c :: rest =>
      if c = 'e' ∨ c = 'E' then
        let (negative, rest) :=
          match rest with
          | '+' :: rest => (false, rest)
          | '-' :: rest => (true, rest)
          | rest => (false, rest)
        let (digits, rest) := spanDigits rest
        if digits.isEmpty || !rest.isEmpty then none else some (some (negative, digits))
      else none

/-- The literal a text spells out. -/
def ofChars? (cs : List Char) : Option Decimal := do
  let (negative, cs) := minusSign cs
  let (whole, cs) := spanDigits cs
  if !isWholePart whole then none
  let (fraction, cs) ← fraction? cs
  let exponent ← exponent? cs
  return ⟨negative, whole, fraction, exponent⟩

end Decimal

/-! ### Values -/

/-- The value of a literal. -/
inductive Number where
  /-- A whole number below `2 ^ 64`. -/
  | natural (n : Nat) : Number
  /-- The negative of a whole number, at least `-2 ^ 63`. -/
  | negative (n : Nat) : Number
  /-- A double: its sign and its magnitude. -/
  | real (negative : Bool) (magnitude : Number.Binary) : Number
  deriving DecidableEq, Repr, Inhabited

namespace Number

/-- The sign of a number. -/
def isNegative : Number → Bool
  | .natural _ => false
  | .negative _ => true
  | .real s _ => s

/-- The magnitude of a number as a double. -/
def magnitude : Number → Binary
  | .natural n => double.round n 1
  | .negative n => double.round n 1
  | .real _ b => b

end Number

namespace Decimal

/-- The words significands are held in have this many values. -/
def wordCount : Nat := Nat.pow 2 64

/-- Appends digits to a significand as long as it stays below `wordCount`; the
digits that were not taken are left over. -/
def takeDigits (significand : Nat) : List Nat → Nat × List Nat
  | [] => (significand, [])
  | d :: rest =>
      if significand * 10 + d < wordCount then takeDigits (significand * 10 + d) rest
      else (significand, d :: rest)

/-- The number that digits spell out. -/
def digitsValue (digits : List Nat) : Nat := digits.foldl (fun n d => n * 10 + d) 0

/-- The double nearest to `10 ^ k`. -/
def powerOfTen (k : Nat) : Number.Binary := Number.double.round (Nat.pow 10 k) 1

/-- The largest power of ten that is in range of a double. -/
def maxPower : Nat := 308

/-- A double divided by `10 ^ k`, in steps of `10 ^ maxPower`. -/
def divPower (b : Number.Binary) (k : Nat) : Number.Binary :=
  if k ≤ maxPower then Number.double.div b (powerOfTen k)
  else if b.mantissa = 0 then b
  else divPower (Number.double.div b (powerOfTen maxPower)) (k - maxPower)
termination_by k
decreasing_by
  simp only [maxPower] at *
  omega

/-- A double multiplied by `10 ^ k`; nothing when the product is out of range. -/
def mulPower (b : Number.Binary) (k : Nat) : Option Number.Binary :=
  if k ≤ maxPower then
    let p := Number.double.mul b (powerOfTen k)
    if Number.double.isOutOfRange p then none else some p
  else if b.mantissa = 0 then some b
  else none

/-- The largest exponent that is read digit by digit. -/
def maxExponent : Nat := Nat.pow 2 31 - 1

/-- The double `significand * 10 ^ exponent`, where `written` is the exponent the
literal spells out: beyond `maxExponent` it decides alone. -/
def scale (significand : Nat) (shift : Int) (written : Option (Bool × List Nat)) :
    Option Number.Binary :=
  let b := Number.double.round significand 1
  let (negative, value) :=
    match written with
    | none => (false, 0)
    | some (negative, digits) => (negative, digitsValue digits)
  -- the digits of the literal cannot make up for such an exponent
  if maxExponent < value then
    if negative || significand = 0 then some (Number.double.round 0 1) else none
  else
    let exponent : Int := if negative then shift - value else shift + value
    if 0 ≤ exponent then mulPower b exponent.toNat else some (divPower b (-exponent).toNat)

/-- The value of a literal; a literal whose value is out of range has none. -/
def value? (l : Decimal) : Option Number :=
  let (significand, extra) := takeDigits 0 l.whole
  if l.fraction.isEmpty && l.exponent.isNone && extra.isEmpty then
    if !l.negative then some (.natural significand)
    else if 0 < significand ∧ significand ≤ Nat.pow 2 63 then some (.negative significand)
    else some (.real true (Number.double.round significand 1))
  else
    let (significand, dropped) := takeDigits significand l.fraction
    let shift : Int := extra.length - (l.fraction.length - dropped.length : Nat)
    (scale significand shift l.exponent).map (.real l.negative)

end Decimal
end MaterialShader
