import Mathlib.Algebra.Order.Field.Basic
import Mathlib.Data.List.DropRight
import Mathlib.Data.Nat.Digits.Defs
import Mathlib.Data.Rat.Cast.Order
import Mathlib.Tactic.FieldSimp
import Mathlib.Tactic.Ring
import MaterialShader.Number.Single

/-!
# Decimal text

The text of a number of units of the last place is a literal as documents have it.  Its digits are
those of the number: the text of the whole part begins with no zero, since it is written by
division, and the zeros that the fraction is filled up with in front count as digits, while those
that are dropped behind it would change nothing.

## Main definitions

* `Decimal.rational` — the rational number that a literal denotes.

## Main results

* `Single.fractionDigits_spec` — the digits of the fraction.
* `Single.exists_decimal_unitsText` — the literal that the text spells out, and what it denotes.
-/

namespace MaterialShader

namespace Decimal

/-! ### The number that a literal denotes -/

/-- The exponent that a literal spells out. -/
def exponentValue : Option (Bool × List Nat) → ℤ
  | none => 0
  | some (true, digits) => -digitsValue digits
  | some (false, digits) => digitsValue digits

/-- The rational number that a literal denotes. -/
def rational (d : Decimal) : ℚ :=
  (if d.negative then -1 else 1) * digitsValue (d.whole ++ d.fraction) *
    10 ^ (exponentValue d.exponent - d.fraction.length)

/-! ### Reading digits -/

variable {cs rest : List Char}

theorem digitsValue_map_digitValue (cs : List Char) :
    digitsValue (cs.map digitValue) = Nat.ofDigitChars 10 cs 0 := by
  rw [digitsValue, List.foldl_map, Nat.ofDigitChars_eq_foldl]
  simp only [digitValue, Nat.mul_comm]

theorem digitValue_digitChar {n : Nat} (h : n < 10) : digitValue n.digitChar = n := by
  have hzero : '0'.toNat = 48 := rfl
  rw [digitValue, Nat.toNat_digitChar_of_lt_ten h, hzero, Nat.add_sub_cancel_left]

/-- Only the digit zero is worth nothing. -/
theorem eq_zero_of_digitValue {c : Char} (hc : c.isDigit = true) (h : digitValue c = 0) :
    c = '0' := by
  have hdigit := Char.isDigit_iff_toNat.mp hc
  have hzero : '0'.toNat = 48 := rfl
  rw [digitValue, hzero] at h
  exact Char.toNat_inj.mp (by omega)

theorem spanDigits_append (hcs : ∀ c ∈ cs, c.isDigit = true)
    (hrest : ∀ c ∈ rest.head?, c.isDigit = false) :
    spanDigits (cs ++ rest) = (cs.map digitValue, rest) := by
  have htake : rest.takeWhile Char.isDigit = [] ∧ rest.dropWhile Char.isDigit = rest := by
    cases rest with
    | nil => exact ⟨rfl, rfl⟩
    | cons c rest =>
      have hc := Bool.eq_false_iff.mp (hrest c rfl)
      exact ⟨List.takeWhile_cons_of_neg hc, List.dropWhile_cons_of_neg hc⟩
  rw [spanDigits, List.takeWhile_append_of_pos hcs, List.dropWhile_append_of_pos hcs, htake.1,
    htake.2, List.append_nil]

/-- The digits of a positive number begin with no zero. -/
theorem exists_toDigits_eq_cons {n : Nat} (h : 0 < n) :
    ∃ d later, Nat.toDigits 10 n = Nat.digitChar d :: later ∧ 0 < d ∧ d < 10 := by
  induction n using Nat.strong_induction_on with
  | h n ih =>
    by_cases hlt : n < 10
    · exact ⟨n, [], Nat.toDigits_of_lt_base hlt, h, hlt⟩
    · obtain ⟨d, later, hdigits, hd⟩ := ih (n / 10) (by omega) (by omega)
      refine ⟨d, later ++ [(n % 10).digitChar], ?_, hd⟩
      rw [Nat.toDigits_of_base_le (by decide) (by omega), hdigits]
      rfl

theorem isWholePart_toDigits (n : Nat) :
    isWholePart ((Nat.toDigits 10 n).map digitValue) = true := by
  rcases Nat.eq_zero_or_pos n with rfl | hpos
  · rfl
  · obtain ⟨d, later, hdigits, hd, hlt⟩ := exists_toDigits_eq_cons hpos
    rw [hdigits, List.map_cons, digitValue_digitChar hlt]
    cases later with
    | nil => rfl
    | cons c later => simp [isWholePart, hd.ne']

end Decimal

/-! ### Writing digits -/

namespace Single

theorem isDigit_toDigits {n : Nat} : ∀ c ∈ Nat.toDigits 10 n, c.isDigit = true :=
  fun _ hc => Nat.isDigit_of_mem_toDigits (by decide) (by decide) hc

theorem isDigit_paddedDigits {width n : Nat} :
    ∀ c ∈ paddedDigits width n, c.isDigit = true := by
  intro c hc
  rcases List.mem_append.mp hc with hc | hc
  · rw [List.eq_of_mem_replicate hc]
    rfl
  · exact isDigit_toDigits c hc

/-- Zeros in front do not count. -/
theorem ofDigitChars_paddedDigits (width n : Nat) :
    Nat.ofDigitChars 10 (paddedDigits width n) 0 = n := by
  rw [paddedDigits, Nat.ofDigitChars_append, Nat.ofDigitChars_replicate_zero, Nat.mul_zero,
    Nat.ofDigitChars_ten_toDigits]

theorem length_paddedDigits {width n : Nat} (hwidth : 0 < width) (h : n < 10 ^ width) :
    (paddedDigits width n).length = width := by
  have hlength := (Nat.length_toDigits_le_iff (by decide : 1 < 10) hwidth).mpr h
  rw [paddedDigits, List.length_append, List.length_replicate]
  omega

theorem dropTrailing_eq_rdropWhile (c : Char) (cs : List Char) :
    dropTrailing c cs = cs.rdropWhile (· == c) := rfl

theorem exists_dropTrailing_append (c : Char) (cs : List Char) :
    ∃ k, dropTrailing c cs ++ List.replicate k c = cs := by
  refine ⟨(cs.rtakeWhile (· == c)).length, ?_⟩
  have hall : ∀ a ∈ cs.rtakeWhile (· == c), a = c := fun a ha =>
    beq_iff_eq.mp (List.mem_rtakeWhile_imp (p := (· == c)) ha)
  rw [dropTrailing_eq_rdropWhile, ← List.eq_replicate_of_mem hall,
    List.rdropWhile_append_rtakeWhile]

theorem getLast?_dropTrailing (c : Char) (cs : List Char) :
    (dropTrailing c cs).getLast? ≠ some c := by
  rw [dropTrailing_eq_rdropWhile]
  intro hlast
  have hne : cs.rdropWhile (· == c) ≠ [] := by
    intro hnil
    rw [hnil] at hlast
    exact absurd hlast (by simp)
  have hneg := List.rdropWhile_last_not (· == c) cs hne
  rw [List.getLast?_eq_some_getLast hne] at hlast
  exact hneg (beq_iff_eq.mpr (Option.some.inj hlast))

/-- The digits of the fraction, as far as it is not zero. -/
def fractionDigits (units : Nat) : List Char :=
  dropTrailing '0' (paddedDigits places (units % 10 ^ places))

theorem unitsText_eq (units : Nat) :
    unitsText units = Nat.toDigits 10 (units / 10 ^ places) ++
      if (fractionDigits units).isEmpty then [] else '.' :: fractionDigits units := by
  have htext : unitsText units = if (fractionDigits units).isEmpty then
      Nat.toDigits 10 (units / 10 ^ places)
    else Nat.toDigits 10 (units / 10 ^ places) ++ '.' :: fractionDigits units := rfl
  rw [htext]
  cases (fractionDigits units).isEmpty with
  | true => exact (List.append_nil _).symm
  | false => rfl

/-- **The digits of the fraction** and the zeros that are dropped behind them. -/
theorem fractionDigits_spec (units : Nat) :
    (∀ c ∈ fractionDigits units, c.isDigit = true) ∧
      (fractionDigits units).getLast? ≠ some '0' ∧
      ∃ k, (fractionDigits units).length + k = places ∧
        10 ^ k * Nat.ofDigitChars 10 (fractionDigits units) 0 = units % 10 ^ places := by
  have hlt : units % 10 ^ places < 10 ^ places := Nat.mod_lt _ (by decide)
  obtain ⟨k, hk⟩ : ∃ k, fractionDigits units ++ List.replicate k '0' =
      paddedDigits places (units % 10 ^ places) := exists_dropTrailing_append _ _
  refine ⟨fun c hc => ?_, getLast?_dropTrailing _ _, k, ?_, ?_⟩
  · exact isDigit_paddedDigits c (hk ▸ List.mem_append_left _ hc)
  · have hlength := congrArg List.length hk
    rwa [List.length_append, List.length_replicate,
      length_paddedDigits (by decide) hlt] at hlength
  · have hvalue := congrArg (fun cs => Nat.ofDigitChars 10 cs 0) hk
    simpa only [Nat.ofDigitChars_append, Nat.ofDigitChars_replicate_zero,
      ofDigitChars_paddedDigits] using hvalue

end Single

/-! ### Reading what is written -/

namespace Decimal

/-- A sign in front of digits is read off. -/
theorem minusSign_append {negative : Bool} {cs : List Char}
    (h : ∀ c ∈ cs.head?, c.isDigit = true) :
    minusSign ((if negative then ['-'] else []) ++ cs) = (negative, cs) := by
  cases negative with
  | true => rfl
  | false =>
    cases cs with
    | nil => rfl
    | cons c cs =>
      have hc : c ≠ '-' := by
        rintro rfl
        exact absurd (h '-' rfl) (by decide)
      simp [minusSign, hc]

/-- A plain literal is read off its digits. -/
theorem ofChars?_plain {negative : Bool} (n : Nat) {fs : List Char}
    (hfs : ∀ c ∈ fs, c.isDigit = true) :
    ofChars? ((if negative then ['-'] else []) ++
        (Nat.toDigits 10 n ++ if fs.isEmpty then [] else '.' :: fs)) =
      some ⟨negative, (Nat.toDigits 10 n).map digitValue, fs.map digitValue, none⟩ := by
  have hhead : ∀ c ∈ (Nat.toDigits 10 n ++ if fs.isEmpty then [] else '.' :: fs).head?,
      c.isDigit = true := by
    intro c hc
    rw [List.head?_append_of_ne_nil _ Nat.toDigits_ne_nil] at hc
    exact Single.isDigit_toDigits c (List.mem_of_mem_head? hc)
  have hpoint : ∀ c ∈ (if fs.isEmpty then [] else '.' :: fs : List Char).head?,
      c.isDigit = false := by
    intro c hc
    split at hc
    · exact absurd hc (by simp)
    · rw [← Option.some.inj hc]
      rfl
  have hfraction : fraction? (if fs.isEmpty then [] else '.' :: fs) =
      some (fs.map digitValue, []) := by
    cases fs with
    | nil => rfl
    | cons c fs =>
      have hspan : spanDigits (c :: fs ++ []) = ((c :: fs).map digitValue, []) :=
        spanDigits_append hfs (by simp)
      rw [List.append_nil] at hspan
      rw [if_neg (by simp), fraction?, hspan]
      rfl
  simp only [ofChars?, minusSign_append hhead, spanDigits_append Single.isDigit_toDigits hpoint,
    isWholePart_toDigits, hfraction, exponent?]
  rfl

end Decimal

namespace Single

/-- The digits before and after the point, as one number, are the number of units over the power of
ten for the places that are missing. -/
theorem ofDigitChars_append_fractionDigits (units : Nat) :
    ∃ k, (fractionDigits units).length + k = places ∧
      10 ^ k * Nat.ofDigitChars 10
        (Nat.toDigits 10 (units / 10 ^ places) ++ fractionDigits units) 0 = units := by
  obtain ⟨-, -, k, hk, hvalue⟩ := fractionDigits_spec units
  refine ⟨k, hk, ?_⟩
  rw [Nat.ofDigitChars_append, Nat.ofDigitChars_ten_toDigits,
    Nat.ofDigitChars_eq_ofDigitChars_zero, Nat.mul_add, hvalue, ← Nat.mul_assoc, ← Nat.pow_add,
    Nat.add_comm k, hk, Nat.div_add_mod]

/-- **The text of a number of units** spells out a literal, which denotes the number of units of
the last place. -/
theorem exists_decimal_unitsText (negative : Bool) (units : Nat) :
    ∃ d : Decimal, Decimal.ofChars? ((if negative then ['-'] else []) ++ unitsText units) =
        some d ∧ d.negative = negative ∧ d.exponent = none ∧ d.fraction.getLast? ≠ some 0 ∧
      d.fraction.length ≤ places ∧
      d.rational = (if negative then -1 else 1) * (units / 10 ^ places) := by
  obtain ⟨hdigits, hlast, -⟩ := fractionDigits_spec units
  obtain ⟨k, hk, hvalue⟩ := ofDigitChars_append_fractionDigits units
  refine ⟨_, by rw [unitsText_eq]; exact Decimal.ofChars?_plain _ hdigits, rfl, rfl, ?_, ?_, ?_⟩
  · intro hzero
    rw [List.getLast?_map, Option.map_eq_some_iff] at hzero
    obtain ⟨c, hc, hzero⟩ := hzero
    rw [Decimal.eq_zero_of_digitValue (hdigits c (List.mem_of_getLast? hc)) hzero] at hc
    exact hlast hc
  · rw [List.length_map]
    omega
  · have hpow : (10 : ℚ) ^ places = 10 ^ k * 10 ^ (fractionDigits units).length := by
      rw [← hk, pow_add, mul_comm]
    have hunits : (units : ℚ) = 10 ^ k * Nat.ofDigitChars 10
        (Nat.toDigits 10 (units / 10 ^ places) ++ fractionDigits units) 0 := by
      exact_mod_cast hvalue.symm
    rw [Decimal.rational, ← List.map_append, Decimal.digitsValue_map_digitValue, List.length_map,
      Decimal.exponentValue, zero_sub, zpow_neg, zpow_natCast, hpow]
    generalize Nat.ofDigitChars 10 _ 0 = digits at hunits ⊢
    rw [hunits]
    field_simp

end Single
end MaterialShader
