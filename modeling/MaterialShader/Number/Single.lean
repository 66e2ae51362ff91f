import MaterialShader.Number.Decimal

/-!
# Single-precision constants

Shader constants are numbers of the 32-bit binary format, held as their bits so
that infinities, the negative zero and numbers that are none keep their identity.
They are written in plain decimal notation: nine places, a tie going to the even
digit, trailing zeros and a bare point dropped.  What is no finite number is
written as zero.

## Main definitions

* `Single` — the bits of a constant.
* `Single.ofBinary`, `Single.ofNumber` — rounding to the format.
* `Single.magnitude?` — the exact magnitude of a finite constant.
* `Single.literal` — its decimal text.
-/

namespace MaterialShader

open Number

/-- A number of the 32-bit binary format, as its bits: a sign bit, eight exponent
bits and twenty-three fraction bits. -/
structure Single where
  /-- The bits, below `2 ^ 32`. -/
  bits : UInt32
  deriving DecidableEq, Repr, Inhabited

namespace Single

/-! ### Bits -/

/-- The format of 32 bits. -/
def format : Format := ⟨24, -149, 128⟩

/-- The exponent and fraction bits of infinity. -/
def infinityBits : Nat := 255 * Nat.pow 2 23

/-- The bits without the sign. -/
def unsignedBits (s : Single) : Nat := s.bits.toNat % Nat.pow 2 31

/-- The sign bit. -/
def isNegative (s : Single) : Bool := Nat.pow 2 31 ≤ s.bits.toNat

/-- The constant with a sign and the given bits after it. -/
def ofSign (negative : Bool) (unsigned : Nat) : Single :=
  ⟨UInt32.ofNat ((if negative then Nat.pow 2 31 else 0) + unsigned)⟩

/-- The constant nearest to a magnitude with a sign; a magnitude out of range
becomes infinite. -/
def ofBinary (negative : Bool) (b : Binary) : Single :=
  let r := format.convert b
  -- a significand with its leading digit carries into the exponent bits
  ofSign negative (min (((r.exponent + 149).toNat) * Nat.pow 2 23 + r.mantissa) infinityBits)

/-- The constant for a number of a document, which is read as a double first. -/
def ofNumber (n : Number) : Single := ofBinary n.isNegative n.magnitude

/-- The constant for a small fraction `n / d` of natural numbers. -/
def ofRatio (n d : Nat) : Single := ofBinary false (double.round n d)

/-- The constant for a natural number. -/
def ofNat (n : Nat) : Single := ofRatio n 1

/-- The magnitude of a finite constant. -/
def magnitude? (s : Single) : Option Binary :=
  let exponent : Nat := s.unsignedBits / Nat.pow 2 23
  let fraction : Nat := s.unsignedBits % Nat.pow 2 23
  if exponent = 255 then none
  else if exponent = 0 then some ⟨fraction, -149⟩
  else some ⟨fraction + Nat.pow 2 23, (exponent : Int) - 150⟩

/-! ### Decimal text -/

/-- How many decimal places a constant is written with at most. -/
def places : Nat := 9

/-- The decimal digits of a number, filled up with zeros in front to a width. -/
def paddedDigits (width n : Nat) : List Char :=
  let digits := Nat.toDigits 10 n
  List.replicate (width - digits.length) '0' ++ digits

/-- The characters of a list up to the last that differs from `c`. -/
def dropTrailing (c : Char) (cs : List Char) : List Char :=
  (cs.reverse.dropWhile (· == c)).reverse

/-- A magnitude in units of the last decimal place, rounded half to even. -/
def placeUnits (b : Binary) : Nat := roundHalfEven (b.numerator * Nat.pow 10 places) b.denominator

/-- The decimal text of a number of `units` of the last place: the whole part, and
the fraction as far as it is not zero. -/
def unitsText (units : Nat) : List Char :=
  let fraction := dropTrailing '0' (paddedDigits places (units % Nat.pow 10 places))
  let whole := Nat.toDigits 10 (units / Nat.pow 10 places)
  if fraction.isEmpty then whole else whole ++ '.' :: fraction

/-- The decimal text of a constant; the sign is kept also for a constant that
rounds to zero. -/
def literal (s : Single) : String :=
  match s.magnitude? with
  | none => "0"
  | some b => String.ofList ((if s.isNegative then ['-'] else []) ++ unitsText (placeUnits b))

end Single
end MaterialShader
