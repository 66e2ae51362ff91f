import Mathlib.Algebra.Order.Field.Power
import Mathlib.Tactic.Linarith
import Mathlib.Tactic.NormNum
import Mathlib.Tactic.Positivity
import MaterialShader.Proofs.DecimalText

/-!
# The literal of a constant

The literal of a constant denotes the number of nine places that is nearest to the constant, and so
not always the constant itself.  Whether the constant can be told from its literal depends on how
far apart the constants are.  Those of magnitude 1/64 and more are `2 ^ (-29)` apart, which is more
than a unit of the last place, so a constant is nearer than any other to what its literal denotes,
and no other is written alike.

Closer to zero there are more constants than numbers of nine places, and different ones are
written alike.  Those that half a unit reaches from zero are written as zero.

## Main definitions

* `Number.Binary.value`, `Single.value?` — the rational number that a magnitude or a constant is.
* `Single.ReadsAs` — the literal of a constant is plain, and denotes the constant rounded to the
  places.

## Main results

* `Single.exists_readsAs` — the literal of a finite constant.
* `Single.le_abs_sub` — how far apart constants are.
* `Single.literal_decimal` — what the literal denotes, and which constants can be told from it.
* `Single.exists_constant_written_as_zero` — constants that cannot.
-/

namespace MaterialShader

open Number

/-! ### Rounding a quotient -/

namespace Number

theorem abs_roundHalfEven_sub_le (n : Nat) {d : Nat} (hd : 0 < d) :
    |(roundHalfEven n d : ℚ) - n / d| ≤ 1 / 2 := by
  have hpos : (0 : ℚ) < d := by exact_mod_cast hd
  obtain ⟨hle, hge⟩ := roundHalfEven_near n d hd
  have hle' : 2 * ((roundHalfEven n d : ℚ) * d) ≤ 2 * n + d := by exact_mod_cast hle
  have hge' : 2 * (n : ℚ) ≤ 2 * (roundHalfEven n d * d) + d := by exact_mod_cast hge
  have hdiff : (roundHalfEven n d : ℚ) - n / d = (roundHalfEven n d * d - n) / d := by
    rw [sub_div, mul_div_cancel_right₀ _ hpos.ne']
  rw [hdiff, abs_div, abs_of_pos hpos, div_le_iff₀ hpos, abs_le]
  constructor <;> linarith

/-- A half is rounded down to zero. -/
theorem roundHalfEven_eq_zero_iff {n d : Nat} (hd : 0 < d) :
    roundHalfEven n d = 0 ↔ 2 * n ≤ d := by
  by_cases hlt : n < d
  · rw [roundHalfEven, Nat.div_eq_of_lt hlt, Nat.mod_eq_of_lt hlt]
    split
    · omega
    · split <;> omega
  · have hquotient : 0 < n / d := Nat.div_pos (by omega) hd
    rw [roundHalfEven]
    split
    · omega
    · split <;> omega

/-- The rational number that a magnitude is. -/
def Binary.value (b : Binary) : ℚ := b.mantissa * 2 ^ b.exponent

theorem Binary.value_nonneg (b : Binary) : 0 ≤ b.value := by
  unfold value
  positivity

theorem Binary.numerator_div_denominator (b : Binary) :
    (b.numerator : ℚ) / b.denominator = b.value := by
  obtain ⟨m, e⟩ := b
  obtain ⟨n, rfl | rfl⟩ := e.eq_nat_or_neg
  · simp [numerator, denominator, value]
  · simp [numerator, denominator, value, div_eq_mul_inv]

end Number

namespace Single

variable {s t : Single} {x y : ℚ} {b : Binary} {d : Decimal} {k : ℤ}

theorem abs_placeUnits_sub_le (b : Binary) :
    |(placeUnits b : ℚ) - b.value * 10 ^ places| ≤ 1 / 2 := by
  have h := abs_roundHalfEven_sub_le (b.numerator * Nat.pow 10 places) b.denominator_pos
  have hquotient : ((b.numerator * Nat.pow 10 places : Nat) : ℚ) / b.denominator =
      b.value * 10 ^ places := by
    rw [← b.numerator_div_denominator, Nat.pow_eq]
    push_cast
    ring
  rwa [hquotient] at h

theorem placeUnits_eq_zero_iff (b : Binary) :
    placeUnits b = 0 ↔ b.value ≤ 1 / (2 * 10 ^ places) := by
  have hpos : (0 : ℚ) < b.denominator := by exact_mod_cast b.denominator_pos
  rw [placeUnits, roundHalfEven_eq_zero_iff b.denominator_pos, ← b.numerator_div_denominator,
    div_le_div_iff₀ hpos (by positivity), one_mul, Nat.pow_eq]
  have hcast : 2 * (b.numerator * 10 ^ places) ≤ b.denominator ↔
      2 * ((b.numerator : ℚ) * 10 ^ places) ≤ b.denominator := by exact_mod_cast Iff.rfl
  rw [hcast, mul_left_comm]

/-! ### The numbers that constants are -/

/-- The rational number that a finite constant is. -/
def value? (s : Single) : Option ℚ :=
  s.magnitude?.map fun b => (if s.isNegative then -1 else 1) * b.value

theorem value?_of_positive (hb : s.magnitude? = some b) (hs : s.isNegative = false) :
    s.value? = some b.value := by
  simp [value?, hb, hs]

theorem value?_eq_some (hs : s.value? = some x) :
    ∃ b, s.magnitude? = some b ∧ x = (if s.isNegative then -1 else 1) * b.value ∧
      |x| = b.value := by
  obtain ⟨b, hb, rfl⟩ := Option.map_eq_some_iff.mp hs
  refine ⟨b, hb, rfl, ?_⟩
  cases s.isNegative <;> simp [abs_of_nonneg b.value_nonneg]

theorem mantissa_lt (h : s.magnitude? = some b) : b.mantissa < 2 ^ 24 := by
  have hlt : s.unsignedBits % Nat.pow 2 23 < 2 ^ 23 := Nat.mod_lt _ (by decide)
  unfold magnitude? at h
  simp only at h
  split at h
  · exact absurd h (by simp)
  · split at h <;> rw [← Option.some.inj h] <;> simp only [Nat.pow_eq] at hlt ⊢ <;> omega

/-! ### How far apart constants are -/

/-- A constant that is far enough from zero lies on a grid, since its significand is bounded. -/
theorem exists_grid (hs : s.value? = some x) (hx : 2 ^ (23 + k) ≤ |x|) :
    ∃ z : ℤ, x = z * 2 ^ k := by
  obtain ⟨b, hb, hvalue, habs⟩ := value?_eq_some hs
  have hmantissa : (b.mantissa : ℚ) < 2 ^ (24 : ℤ) := by exact_mod_cast mantissa_lt hb
  have hlt : (2 : ℚ) ^ (23 + k) < 2 ^ (24 + b.exponent) := by
    calc (2 : ℚ) ^ (23 + k) ≤ b.mantissa * 2 ^ b.exponent := hx.trans habs.le
      _ < 2 ^ (24 : ℤ) * 2 ^ b.exponent := by gcongr
      _ = 2 ^ (24 + b.exponent) := (zpow_add₀ two_ne_zero _ _).symm
  have hexponent := (zpow_lt_zpow_iff_right₀ one_lt_two).mp hlt
  obtain ⟨n, hn⟩ := Int.eq_ofNat_of_zero_le (by omega : 0 ≤ b.exponent - k)
  have hpow : (2 : ℚ) ^ b.exponent = 2 ^ n * 2 ^ k := by
    rw [← zpow_natCast, ← zpow_add₀ two_ne_zero]
    congr 1
    omega
  refine ⟨(if s.isNegative then -1 else 1) * (b.mantissa * 2 ^ n), ?_⟩
  rw [hvalue, Binary.value, hpow]
  push_cast
  ring

/-- **Constants that are far from zero are far from every other**, also from those that are
closer to zero. -/
theorem le_abs_sub (hs : s.value? = some x) (ht : t.value? = some y)
    (hx : 2 ^ (23 + k) < |x|) (hne : y ≠ x) : 2 ^ k ≤ |x - y| := by
  have hpos : (0 : ℚ) < 2 ^ k := by positivity
  obtain ⟨z, hz⟩ := exists_grid hs hx.le
  by_cases hy : 2 ^ (23 + k) ≤ |y|
  · -- both lie on the grid
    obtain ⟨w, hw⟩ := exists_grid ht hy
    have hzw : z - w ≠ 0 := by
      intro h
      exact hne (by rw [hz, hw, sub_eq_zero.mp h])
    have hone : (1 : ℚ) ≤ |((z - w : ℤ) : ℚ)| := by exact_mod_cast Int.one_le_abs hzw
    calc (2 : ℚ) ^ k = 1 * 2 ^ k := (one_mul _).symm
      _ ≤ |((z - w : ℤ) : ℚ)| * 2 ^ k := by gcongr
      _ = |x - y| := by rw [hz, hw, ← sub_mul, abs_mul, abs_of_pos hpos, Int.cast_sub]
  · -- the first is a step beyond the bound, which is on the grid as well
    have hbound : (2 : ℚ) ^ (23 + k) = 2 ^ 23 * 2 ^ k := by
      rw [zpow_add₀ two_ne_zero]
      rfl
    have habs : |x| = (|z| : ℤ) * 2 ^ k := by
      rw [hz, abs_mul, abs_of_pos hpos, Int.cast_abs]
    have hlt : (2 : ℤ) ^ 23 < |z| := by
      rw [habs, hbound] at hx
      exact_mod_cast lt_of_mul_lt_mul_right hx hpos.le
    have hstep : (2 : ℚ) ^ 23 + 1 ≤ (|z| : ℤ) := by exact_mod_cast hlt
    have hfar : 2 ^ (23 + k) + 2 ^ k ≤ |x| := by
      calc (2 : ℚ) ^ (23 + k) + 2 ^ k = (2 ^ 23 + 1) * 2 ^ k := by rw [hbound]; ring
        _ ≤ (|z| : ℤ) * 2 ^ k := by gcongr
        _ = |x| := habs.symm
    have := abs_sub_abs_le_abs_sub x y
    linarith

/-! ### What a literal denotes -/

/-- The literal of a constant is plain, and denotes the constant rounded to the places. -/
structure ReadsAs (s : Single) (x : ℚ) (d : Decimal) : Prop where
  /-- The literal spells out a decimal, so no point is without digits. -/
  reads : Decimal.ofChars? s.literal.toList = some d
  plain : d.exponent = none
  /-- The fraction does not end in a zero. -/
  trimmed : d.fraction.getLast? ≠ some 0
  short : d.fraction.length ≤ places
  sign : d.negative = s.isNegative
  /-- No number of so many places is nearer. -/
  near : |d.rational - x| ≤ 1 / (2 * 10 ^ places)

/-- **The literal of a finite constant.** -/
theorem exists_readsAs (hs : s.value? = some x) :
    ∃ d, s.ReadsAs x d ∧ (d.rational = 0 ↔ |x| ≤ 1 / (2 * 10 ^ places)) := by
  obtain ⟨b, hb, hvalue, habs⟩ := value?_eq_some hs
  obtain ⟨d, hreads, hsign, hplain, htrimmed, hshort, hrational⟩ :=
    exists_decimal_unitsText s.isNegative (placeUnits b)
  have hliteral : s.literal.toList =
      (if s.isNegative then ['-'] else []) ++ unitsText (placeUnits b) := by
    rw [literal, hb]
    exact String.toList_ofList
  have hnear : |d.rational - x| = |(placeUnits b : ℚ) / 10 ^ places - b.value| := by
    rw [hrational, hvalue, ← mul_sub, abs_mul]
    cases s.isNegative <;> simp
  refine ⟨d, ⟨hliteral ▸ hreads, hplain, htrimmed, hshort, hsign, ?_⟩, ?_⟩
  · have hunits := abs_placeUnits_sub_le b
    have hpow : (0 : ℚ) < 10 ^ places := by positivity
    have hscaled : (placeUnits b : ℚ) / 10 ^ places - b.value =
        (placeUnits b - b.value * 10 ^ places) / 10 ^ places := by
      field_simp
    rw [hnear, hscaled, abs_div, abs_of_pos hpow, ← div_div]
    gcongr
  · rw [habs, ← placeUnits_eq_zero_iff, hrational]
    cases s.isNegative <;> simp

namespace ReadsAs

/-- A plain literal with few enough places denotes a whole number of units. -/
theorem exists_units (h : s.ReadsAs x d) : ∃ w : ℤ, d.rational = w / 10 ^ places := by
  obtain ⟨k, hk⟩ := Nat.exists_eq_add_of_le h.short
  refine ⟨(if d.negative then -1 else 1) * (Decimal.digitsValue (d.whole ++ d.fraction) * 10 ^ k),
    ?_⟩
  rw [Decimal.rational, h.plain, Decimal.exponentValue, zero_sub, zpow_neg, zpow_natCast, hk,
    pow_add]
  push_cast
  field_simp

/-- A constant that is a whole number of units is what its literal denotes. -/
theorem rational_eq (h : s.ReadsAs x d) {z : ℤ} (hz : x = z / 10 ^ places) : d.rational = x := by
  obtain ⟨w, hw⟩ := h.exists_units
  have hpow : (0 : ℚ) < 10 ^ places := by positivity
  have hnear := h.near
  rw [hw, hz, ← sub_div, abs_div, abs_of_pos hpow, ← div_div,
    div_le_div_iff_of_pos_right hpow] at hnear
  have hhalf : |((w - z : ℤ) : ℚ)| < 1 := by
    push_cast
    linarith
  have hzero : w - z = 0 := Int.abs_lt_one_iff.mp (by exact_mod_cast hhalf)
  rw [hw, hz, sub_eq_zero.mp hzero]

/-- **No other constant is near** to what the literal of a constant denotes, if the constant is far
enough from zero. -/
theorem lt_abs_sub (h : s.ReadsAs x d) (hs : s.value? = some x) (hx : 1 / 64 ≤ |x|)
    (ht : t.value? = some y) (hne : y ≠ x) : 1 / (2 * 10 ^ places) < |d.rational - y| := by
  have hplaces : places = 9 := rfl
  rcases hx.lt_or_eq with hlt | heq
  · have hfar : (2 : ℚ) ^ (-29 : ℤ) ≤ |x - y| := le_abs_sub hs ht (by norm_num; linarith) hne
    have htriangle := abs_sub_le x d.rational y
    have hnear := h.near
    rw [abs_sub_comm x d.rational] at htriangle
    rw [hplaces] at hnear ⊢
    norm_num at hfar hnear ⊢
    linarith
  · -- the bound itself has so few places that its literal is exact, so a finer grid is enough
    have hexact : d.rational = x := by
      rcases abs_eq (by norm_num : (0 : ℚ) ≤ 1 / 64) |>.mp heq.symm with hpos | hneg
      · exact h.rational_eq (z := 15625000) (by rw [hpos, hplaces]; norm_num)
      · exact h.rational_eq (z := -15625000) (by rw [hneg, hplaces]; norm_num)
    have hfar : (2 : ℚ) ^ (-30 : ℤ) ≤ |x - y| :=
      le_abs_sub hs ht (by rw [← heq]; norm_num) hne
    rw [hexact, hplaces]
    norm_num at hfar ⊢
    linarith

end ReadsAs

/-- **What the literal of a finite constant denotes**: it is plain, and denotes the constant rounded
to nine places, which is zero for the constants that half a unit reaches from zero.  Constants that
are written alike are at most a unit apart.  A constant of magnitude 1/64 or more is nearer than
any other to what its literal denotes, and no other is written alike. -/
theorem literal_decimal (hs : s.value? = some x) :
    ∃ d, s.ReadsAs x d ∧ (d.rational = 0 ↔ |x| ≤ 1 / (2 * 10 ^ places)) ∧
      (∀ (t : Single) y, t.value? = some y → t.literal = s.literal →
        |x - y| ≤ 1 / 10 ^ places) ∧
      (1 / 64 ≤ |x| → ∀ (t : Single) y, t.value? = some y → y ≠ x →
        |d.rational - x| < |d.rational - y| ∧ t.literal ≠ s.literal) := by
  obtain ⟨d, hd, hzero⟩ := exists_readsAs hs
  -- a constant that is written alike is rounded to the same
  have halike : ∀ (t : Single) y, t.value? = some y → t.literal = s.literal →
      |d.rational - y| ≤ 1 / (2 * 10 ^ places) := by
    intro t y ht hliteral
    obtain ⟨u, hu, -⟩ := exists_readsAs ht
    have hreads := hu.reads
    rw [hliteral, hd.reads] at hreads
    rw [Option.some.inj hreads]
    exact hu.near
  refine ⟨d, hd, hzero, fun t y ht hliteral => ?_, fun hx t y ht hne => ?_⟩
  · have htriangle := abs_sub_le x d.rational y
    have hnear := hd.near
    have hother := halike t y ht hliteral
    have hhalf : (1 : ℚ) / (2 * 10 ^ places) = 1 / 10 ^ places / 2 := by
      rw [div_div, mul_comm]
    rw [abs_sub_comm x d.rational] at htriangle
    linarith
  · have hfar := hd.lt_abs_sub hs hx ht hne
    exact ⟨hd.near.trans_lt hfar, fun hliteral => (halike t y ht hliteral).not_gt hfar⟩

/-- The constant nearest to a tenth. -/
def tenth : Single := ⟨1036831949⟩

theorem literal_decimal_tenth :
    ∃ x d, tenth.value? = some x ∧ tenth.literal = "0.100000001" ∧ tenth.ReadsAs x d ∧
      d.rational ≠ 0 ∧ ∀ (t : Single) y, t.value? = some y → y ≠ x →
        |d.rational - x| < |d.rational - y| ∧ t.literal ≠ "0.100000001" := by
  have hliteral : tenth.literal = "0.100000001" := by decide +kernel
  have hvalue : tenth.value? = some (Binary.value ⟨13421773, -27⟩) :=
    value?_of_positive (by decide) (by decide)
  have hfar : 1 / 64 ≤ |Binary.value ⟨13421773, -27⟩| := by
    rw [abs_of_nonneg (Binary.value_nonneg _), Binary.value]
    norm_num
  obtain ⟨d, hd, hzero, -, hnearest⟩ := literal_decimal hvalue
  refine ⟨_, d, hvalue, hliteral, hd, fun h => ?_, hliteral ▸ hnearest hfar⟩
  have hsmall := hfar.trans (hzero.mp h)
  norm_num [places] at hsmall

/-- **Constants that are lost**: one is written as zero, and two that are hardly smaller than 1/64
are written alike. -/
theorem exists_constant_written_as_zero :
    (∃ (s : Single) (x : ℚ), s.value? = some x ∧ x ≠ 0 ∧ s.literal = "0") ∧
      ∃ (s t : Single) (x y : ℚ), s.value? = some x ∧ t.value? = some y ∧ x ≠ y ∧
        1 / 65 ≤ x ∧ 1 / 65 ≤ y ∧ s.literal = t.literal := by
  have hsmall : (⟨786163455⟩ : Single).value? = some (Binary.value ⟨14411519, -57⟩) :=
    value?_of_positive (by decide) (by decide)
  have hfirst : (⟨1015021561⟩ : Single).value? = some (Binary.value ⟨16777209, -30⟩) :=
    value?_of_positive (by decide) (by decide)
  have hsecond : (⟨1015021560⟩ : Single).value? = some (Binary.value ⟨16777208, -30⟩) :=
    value?_of_positive (by decide) (by decide)
  exact ⟨⟨_, _, hsmall, by norm_num [Binary.value], by decide +kernel⟩,
    ⟨_, _, _, _, hfirst, hsecond, by norm_num [Binary.value], by norm_num [Binary.value],
      by norm_num [Binary.value], by decide +kernel⟩⟩

end Single
end MaterialShader
