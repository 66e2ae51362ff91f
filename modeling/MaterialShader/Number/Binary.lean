/-!
# Binary numbers and rounding to them

Magnitudes of the form `mantissa * 2 ^ exponent`, and the rounding of a quotient
of natural numbers to the nearest one a format can hold.  All arithmetic is exact
on natural numbers; rounding happens in `roundHalfEven` alone.

## Main definitions

* `roundHalfEven` — the natural number nearest to a quotient, ties to even.
* `Binary` — a magnitude `mantissa * 2 ^ exponent`.
* `Format`, `Format.round` — a binary format and the rounding to it.
* `double` — the format documents are read in.
-/

namespace MaterialShader
namespace Number

/-! ### Rounding a quotient -/

/-- The natural number nearest to `n / d`; of two equally near ones, the even
one. -/
def roundHalfEven (n d : Nat) : Nat :=
  if 2 * (n % d) < d then n / d
  else if d < 2 * (n % d) then n / d + 1
  else n / d + n / d % 2

/-- Rounding moves a quotient by at most a half. -/
theorem roundHalfEven_near (n d : Nat) (h : 0 < d) :
    2 * (roundHalfEven n d * d) ≤ 2 * n + d ∧ 2 * n ≤ 2 * (roundHalfEven n d * d) + d := by
  have hdiv := Nat.div_add_mod n d
  have hlt := Nat.mod_lt n h
  have hcomm : n / d * d = d * (n / d) := Nat.mul_comm _ _
  unfold roundHalfEven
  split
  · omega
  · split
    · rw [Nat.add_mul]; omega
    · have hpar : n / d % 2 = 0 ∨ n / d % 2 = 1 := by omega
      rcases hpar with hp | hp <;> rw [hp, Nat.add_mul] <;> omega

/-! ### Binary magnitudes -/

/-- The magnitude `mantissa * 2 ^ exponent`. -/
structure Binary where
  /-- The significand. -/
  mantissa : Nat
  /-- The power of two that scales it. -/
  exponent : Int
  deriving DecidableEq, Repr, Inhabited

/-- The numerator of a magnitude written as a quotient. -/
def Binary.numerator (b : Binary) : Nat := b.mantissa * Nat.pow 2 b.exponent.toNat

/-- The denominator of a magnitude written as a quotient. -/
def Binary.denominator (b : Binary) : Nat := Nat.pow 2 (-b.exponent).toNat

theorem Binary.denominator_pos (b : Binary) : 0 < b.denominator :=
  Nat.pow_pos (by decide)

/-! ### Formats -/

/-- A binary floating-point format. -/
structure Format where
  /-- How many binary digits a significand has. -/
  precision : Nat
  /-- The exponent of the finest grid. -/
  minExponent : Int
  /-- Magnitudes from `2 ^ overflow` on are out of range. -/
  overflow : Nat
  deriving DecidableEq, Repr

/-- The format of 64 bits, in which documents are read. -/
def double : Format := ⟨53, -1074, 1024⟩

/-- The greatest `k` with `2 ^ k ≤ n / d`, for positive `n` and `d`. -/
def floorLog2 (n d : Nat) : Int :=
  let k : Int := (n.log2 : Int) - (d.log2 : Int)
  if d * Nat.pow 2 k.toNat ≤ n * Nat.pow 2 (-k).toNat then k else k - 1

/-- The exponent of the grid on which a format holds the numbers near `n / d`. -/
def Format.gridExponent (f : Format) (n d : Nat) : Int :=
  max (floorLog2 n d - ((f.precision : Int) - 1)) f.minExponent

/-- The number of the format's grid nearest to `n / d`, ties to the even
significand, as if no magnitude were out of range. -/
def Format.round (f : Format) (n d : Nat) : Binary :=
  if n = 0 then ⟨0, f.minExponent⟩
  else
    let e := f.gridExponent n d
    ⟨roundHalfEven (n * Nat.pow 2 (-e).toNat) (d * Nat.pow 2 e.toNat), e⟩

/-- A magnitude that the format cannot hold because it is too large. -/
def Format.isOutOfRange (f : Format) (b : Binary) : Bool :=
  b.denominator * Nat.pow 2 f.overflow ≤ b.numerator

/-- A magnitude rounded to a format. -/
def Format.convert (f : Format) (b : Binary) : Binary := f.round b.numerator b.denominator

/-- The rounded product of two magnitudes. -/
def Format.mul (f : Format) (a b : Binary) : Binary :=
  f.round (a.numerator * b.numerator) (a.denominator * b.denominator)

/-- The rounded quotient of two magnitudes, for a positive divisor. -/
def Format.div (f : Format) (a b : Binary) : Binary :=
  f.round (a.numerator * b.denominator) (a.denominator * b.numerator)

end Number
end MaterialShader
