import Billing.Proofs.Decimal.Value
import Billing.Proofs.Money.Scaled

set_option autoImplicit false

/-! # Rounding to cents

An amount stands for a rational number of units (`Amount.value`). Rounding a decimal to cents gives
the nearest whole number of them, a half going away from zero (`inCents`), unless this needs more
than 28 digits: `Amount.exists_round_iff` says when there is an amount, and
`Amount.signedCents_of_round` which one it is.
-/

namespace Billing

/-! ## The nearest number of cents -/

/-- The whole number of cents nearest to a number of units, a half going away from zero. -/
def inCents (x : ℚ) : ℤ := SignType.sign x * roundHalfUp (|x| * 100)

section Nearest

variable {x y : ℚ}

theorem inCents_of_nonneg (h : 0 ≤ x) : inCents x = roundHalfUp (x * 100) := by
  rcases h.eq_or_lt with rfl | hpos
  · have hround : roundHalfUp (0 * 100) = 0 := by exact_mod_cast roundHalfUp_intCast 0
    rw [hround, inCents, sign_zero, SignType.coe_zero, zero_mul]
  · rw [inCents, sign_pos hpos, SignType.coe_one, one_mul, abs_of_pos hpos]

theorem inCents_neg (x : ℚ) : inCents (-x) = -inCents x := by
  simp [inCents, Left.sign_neg]

/-- Without its sign, a number is rounded to as many cents. -/
theorem abs_inCents (x : ℚ) : |inCents x| = roundHalfUp (|x| * 100) := by
  have hnonneg : 0 ≤ roundHalfUp (|x| * 100) := roundHalfUp_nonneg (by positivity)
  rcases le_total 0 x with h | h
  · rw [inCents_of_nonneg h, ← abs_of_nonneg h, abs_abs, abs_of_nonneg hnonneg]
  · rw [← abs_neg, ← inCents_neg, inCents_of_nonneg (neg_nonneg.2 h), ← abs_of_nonpos h,
      abs_of_nonneg hnonneg]

/-- The sign of another number is put in front before or after rounding. -/
theorem inCents_sign_mul (h : 0 ≤ y) :
    inCents (SignType.sign x * y) = SignType.sign x * roundHalfUp (y * 100) := by
  rcases lt_trichotomy x 0 with hx | rfl | hx
  · simp [sign_neg hx, inCents_neg, inCents_of_nonneg h]
  · simp [inCents]
  · simp [sign_pos hx, inCents_of_nonneg h]

/-- A whole number of cents is kept. -/
theorem inCents_intCast_div (n : ℤ) : inCents (n / 100) = n := by
  have hnonneg : ∀ n : ℤ, 0 ≤ n → inCents (n / 100) = n := by
    intro n h
    have hunits : (0 : ℚ) ≤ n / 100 := div_nonneg (Int.cast_nonneg h) (by norm_num)
    rw [inCents_of_nonneg hunits, div_mul_cancel₀ _ (by norm_num), roundHalfUp_intCast]
  rcases le_total 0 n with h | h
  · exact hnonneg n h
  · have hneg := hnonneg (-n) (by omega)
    rw [Int.cast_neg, neg_div, inCents_neg] at hneg
    omega

/-- A number of units that is a whole number of cents. -/
def WholeCents (x : ℚ) : Prop := ∃ n : ℤ, x = n / 100

theorem WholeCents.inCents_div (h : WholeCents x) : (inCents x : ℚ) / 100 = x := by
  obtain ⟨n, rfl⟩ := h
  rw [inCents_intCast_div]

theorem wholeCents_abs : WholeCents |x| ↔ WholeCents x := by
  rcases abs_choice x with h | h
  · rw [h]
  · rw [h]
    constructor
    · rintro ⟨n, hn⟩
      exact ⟨-n, by rw [Int.cast_neg, neg_div, ← hn, neg_neg]⟩
    · rintro ⟨n, rfl⟩
      exact ⟨-n, by rw [Int.cast_neg, neg_div]⟩

/-- What has few enough cents is below `10 ^ 26` units. -/
theorem abs_lt_of_inCents (h : |inCents x| < 10 ^ 28) : |x| < 10 ^ 26 := by
  rw [abs_inCents, roundHalfUp_lt_iff] at h
  norm_num at h ⊢
  linarith

theorem WholeCents.abs_lt_iff (h : WholeCents x) : |x| < 10 ^ 26 ↔ |inCents x| < 10 ^ 28 := by
  refine ⟨fun hlt => ?_, abs_lt_of_inCents⟩
  rw [← h.inCents_div, abs_div, abs_of_pos (by norm_num : (0 : ℚ) < 100),
    div_lt_iff₀ (by norm_num)] at hlt
  norm_num at hlt
  exact_mod_cast hlt

/-- No other whole number of cents is nearer. -/
theorem abs_inCents_sub_le (x : ℚ) (n : ℤ) : |(inCents x : ℚ) - x * 100| ≤ |n - x * 100| := by
  have hnonneg : ∀ (x : ℚ) (n : ℤ), 0 ≤ x → |(inCents x : ℚ) - x * 100| ≤ |n - x * 100| := by
    intro x n h
    rw [inCents_of_nonneg h]
    exact abs_roundHalfUp_sub_le_abs (x * 100) n
  rcases le_total 0 x with h | h
  · exact hnonneg x n h
  · have hneg := hnonneg (-x) (-n) (neg_nonneg.2 h)
    rwa [inCents_neg, Int.cast_neg, Int.cast_neg, neg_mul, ← neg_sub', ← neg_sub', abs_neg,
      abs_neg] at hneg

/-- Of two whole numbers of cents that are equally near, the other one is smaller. -/
theorem abs_le_abs_inCents {n : ℤ} (htie : |(n : ℚ) - x * 100| = |(inCents x : ℚ) - x * 100|) :
    |n| ≤ |inCents x| := by
  have hnonneg : ∀ (x : ℚ) (n : ℤ), 0 ≤ x → |(n : ℚ) - x * 100| = |(inCents x : ℚ) - x * 100| →
      |n| ≤ |inCents x| := by
    intro x n h htie
    rw [inCents_of_nonneg h] at htie ⊢
    exact (abs_le_roundHalfUp (by positivity) htie).trans (le_abs_self _)
  rcases le_total 0 x with h | h
  · exact hnonneg x n h htie
  · have hneg := hnonneg (-x) (-n) (neg_nonneg.2 h)
    rw [inCents_neg, Int.cast_neg, Int.cast_neg, neg_mul, ← neg_sub', ← neg_sub', abs_neg, abs_neg,
      abs_neg, abs_neg] at hneg
    exact hneg htie

theorem inCents_mono (h : x ≤ y) : inCents x ≤ inCents y := by
  have hnonneg : ∀ {x y : ℚ}, 0 ≤ x → x ≤ y → inCents x ≤ inCents y := by
    intro x y hx h
    rw [inCents_of_nonneg hx, inCents_of_nonneg (hx.trans h)]
    exact roundHalfUp_mono (mul_le_mul_of_nonneg_right h (by norm_num))
  have hzero : inCents 0 = 0 := by
    rw [inCents, sign_zero, SignType.coe_zero, zero_mul]
  rcases le_total 0 x with hx | hx
  · exact hnonneg hx h
  rcases le_total 0 y with hy | hy
  · -- zero lies between them
    calc inCents x = -inCents (-x) := by rw [inCents_neg, neg_neg]
      _ ≤ 0 := by
          rw [neg_nonpos, ← hzero]
          exact hnonneg le_rfl (neg_nonneg.2 hx)
      _ ≤ inCents y := hzero ▸ hnonneg le_rfl hy
  · have hneg := hnonneg (neg_nonneg.2 hy) (neg_le_neg h)
    rwa [inCents_neg, inCents_neg, neg_le_neg_iff] at hneg

end Nearest

/-! ## Amounts -/

namespace Amount

variable {a : Amount} {d : Decimal} {e : Failure}

/-- The number of units that an amount stands for. -/
def value (a : Amount) : ℚ := a.signedCents / 100

theorem value_le_iff {b : Amount} : a.value ≤ b.value ↔ a.signedCents ≤ b.signedCents := by
  rw [value, value, div_le_div_iff_of_pos_right (by norm_num), Int.cast_le]

theorem value_nonneg_iff : 0 ≤ a.value ↔ 0 ≤ a.signedCents := by
  rw [value, le_div_iff₀ (by norm_num), zero_mul, Int.cast_nonneg_iff]

theorem value_largest : largest.value = 10 ^ 26 - 1 / 100 := by
  have hcents : largest.signedCents = 10 ^ 28 - 1 := rfl
  rw [value, hcents]
  norm_num

theorem value_toDecimal (a : Amount) : a.toDecimal.value = a.value := by
  have hsize : a.toDecimal.size = a.cents / 100 := by
    rw [size_toDecimal]
    norm_num
    ring
  have hsign : a.toDecimal.negative = a.negative := rfl
  rw [Decimal.value, hsize, hsign, value, signedCents]
  cases a.negative
  · simp
  · simp [neg_div]

/-- What becomes of a decimal, by its sign. -/
theorem inCents_value (d : Decimal) :
    inCents d.value =
      if d.negative then -roundHalfUp (d.size * 100) else roundHalfUp (d.size * 100) := by
  rw [Decimal.value]
  split
  · rw [inCents_neg, inCents_of_nonneg d.size_nonneg]
  · exact inCents_of_nonneg d.size_nonneg

theorem signedCents_of_round (h : Amount.round d = .ok a) : a.signedCents = inCents d.value := by
  rw [inCents_value, ← cents_of_round h, ← (eq_of_round h).1, signedCents]

theorem scaled_eq (d : Decimal) : (d.scaled .awayFromZero 2 : ℤ) = |inCents d.value| := by
  rw [scaled_awayFromZero, abs_inCents, Decimal.abs_value]

theorem tenTo_precision : ((tenTo Decimal.precision : ℕ) : ℤ) = 10 ^ 28 := rfl

/-- Too large in whole cents is too large in cents. -/
theorem le_abs_inCents (nonzero : d.isZero = false)
    (long : (Decimal.precision : Int) < d.digits + (d.exponent + 2)) :
    10 ^ 28 ≤ |inCents d.value| := by
  have hadjusted : 26 ≤ d.adjusted := by
    simp only [Decimal.precision] at long
    rw [Decimal.adjusted]
    omega
  have hsize : (10 : ℚ) ^ (26 : ℤ) ≤ d.size :=
    (ten_zpow_le_iff.2 hadjusted).trans (Decimal.le_size nonzero)
  rw [abs_inCents, Decimal.abs_value, le_roundHalfUp_iff]
  norm_num at hsize ⊢
  linarith

/-- There is an amount nearest to a decimal if it has few enough digits. -/
theorem exists_round_iff : (∃ a, Amount.round d = .ok a) ↔ |inCents d.value| < 10 ^ 28 := by
  have hfits : d.scaled .awayFromZero 2 < tenTo Decimal.precision ↔
      |inCents d.value| < 10 ^ 28 := by
    rw [← scaled_eq, ← tenTo_precision, Nat.cast_lt]
  unfold Amount.round ofDecimal?
  by_cases hlong : (!d.isZero && decide ((Decimal.precision : Int) < d.digits + (d.exponent + 2)))
  · have hguard := hlong
    rw [Bool.and_eq_true, Bool.not_eq_true', decide_eq_true_iff] at hguard
    refine iff_of_false ?_ (le_abs_inCents hguard.1 hguard.2).not_gt
    simp [hlong]
  · rw [← hfits]
    by_cases hlt : d.scaled .awayFromZero 2 < tenTo Decimal.precision
    · simp [hlong, hlt]
    · simp [hlong, hlt]

/-- All that can be wrong with a number is that it has too many digits. -/
theorem round_eq_error (h : Amount.round d = .error e) : e = .invalid "amount" d.text := by
  unfold Amount.round at h
  split at h
  next => cases h
  next => exact (Except.error.inj h).symm

end Amount

end Billing
