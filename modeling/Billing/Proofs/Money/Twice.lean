import Billing.Proofs.Money.Cents

set_option autoImplicit false

/-! # Rounding twice

What is computed with amounts is rounded to 28 digits first, a half to the even one, and then to
cents, a half away from zero (`centsOfNearest`). The two errors together are at most 0.0055 units
(`abs_cents_sub_le`), and where the exact result has at most 28 digits (`FewDigits`) there is one
rounding only (`cents_of_fewDigits`). `Decimal.Computes` says of an operation what its exact result
is; the amount that comes of it, and whether there is one, depends on that result alone.
-/

namespace Billing

open Decimal

/-! ## Rounding twice -/

/-- A number with at most 28 significant digits. -/
def FewDigits (x : ℚ) : Prop := ∃ n k : ℤ, |n| < 10 ^ 28 ∧ x = n * 10 ^ k

/-- The cents of a number that is rounded to 28 digits first. -/
def centsOfNearest (x : ℚ) : ℤ := roundHalfUp (nearest x * 100)

section Twice

variable {x : ℚ}

theorem FewDigits.abs (h : FewDigits x) : FewDigits |x| := by
  obtain ⟨n, k, hn, rfl⟩ := h
  refine ⟨|n|, k, by rwa [abs_abs], ?_⟩
  rw [abs_mul, abs_of_pos (ten_zpow_pos k), Int.cast_abs]

theorem FewDigits.exists_natCast (h : FewDigits x) (hx : 0 ≤ x) :
    ∃ (c : ℕ) (k : ℤ), c < tenTo precision ∧ x = c * 10 ^ k := by
  obtain ⟨n, k, hn, rfl⟩ := h
  have hnonneg : 0 ≤ n := by
    have hcast := nonneg_of_mul_nonneg_left hx (ten_zpow_pos k)
    exact_mod_cast hcast
  obtain ⟨c, rfl⟩ := Int.eq_ofNat_of_zero_le hnonneg
  refine ⟨c, k, ?_, by rw [Int.cast_natCast]⟩
  rw [abs_of_nonneg hnonneg, ← Amount.tenTo_precision] at hn
  exact_mod_cast hn

theorem natCast_mul_lt {c : ℕ} (hc : c < tenTo precision) (k : ℤ) :
    (c : ℚ) * 10 ^ k < 10 ^ (precision + k : ℤ) := by
  calc (c : ℚ) * 10 ^ k < 10 ^ (precision : ℤ) * 10 ^ k := by
        rw [← cast_tenTo]
        exact mul_lt_mul_of_pos_right (Nat.cast_lt.2 hc) (ten_zpow_pos k)
    _ = 10 ^ (precision + k : ℤ) := (ten_zpow_add _ _).symm

/-- An overflow is far beyond what amounts can hold. -/
theorem units_le_overflowLimit : (10 : ℚ) ^ (26 : ℤ) ≤ overflowLimit := by
  calc (10 : ℚ) ^ (26 : ℤ) ≤ 10 ^ maxExponent := ten_zpow_le_iff.2 (by decide)
    _ ≤ overflowLimit := le_overflowLimit

/-- From `10 ^ 26` on there are too many cents. -/
theorem le_centsOfNearest (h : (10 : ℚ) ^ (26 : ℤ) ≤ x) : 10 ^ 28 ≤ centsOfNearest x := by
  have hlarge := zpow_le_nearest (by decide) h
  rw [centsOfNearest, le_roundHalfUp_iff]
  norm_num at hlarge ⊢
  linarith

theorem abs_nearest_sub_le_of_lt {k : ℤ} (hx : 0 ≤ x) (hlt : x < 10 ^ k)
    (hk : tinyExponent ≤ k - precision) : |nearest x - x| ≤ 10 ^ (k - precision : ℤ) / 2 := by
  rcases hx.eq_or_lt with rfl | hpos
  · rw [nearest_zero, sub_zero, abs_zero]
    exact (half_pos (ten_zpow_pos _)).le
  · have hplace := ten_zpow_le_iff.2 (lastPlace_le_of_lt hpos hlt hk)
    have herror := abs_nearest_sub_le x
    linarith

theorem centsOfNearest_mono {y : ℚ} (hx : 0 ≤ x) (h : x ≤ y) :
    centsOfNearest x ≤ centsOfNearest y :=
  roundHalfUp_mono (mul_le_mul_of_nonneg_right (nearest_mono hx h) (by norm_num))

/-- Below a tenth of a cent nothing is left. -/
theorem centsOfNearest_of_small (hx : 0 ≤ x) (h : x < (10 : ℚ) ^ (-3 : ℤ)) :
    centsOfNearest x = 0 ∧ roundHalfUp (x * 100) = 0 := by
  have herror := abs_le.1 (abs_nearest_sub_le_of_lt hx h (by decide))
  have hnonneg := nearest_nonneg hx
  norm_num [precision] at herror h
  constructor
  · rw [centsOfNearest, roundHalfUp_eq_iff]
    push_cast
    constructor <;> linarith
  · rw [roundHalfUp_eq_iff]
    push_cast
    constructor <;> linarith

/-- With few digits, only the second rounding does anything. -/
theorem cents_of_fewDigits (hx : 0 ≤ x) (h : FewDigits x) :
    centsOfNearest x = roundHalfUp (x * 100) := by
  obtain ⟨c, k, hc, rfl⟩ := h.exists_natCast hx
  by_cases hk : tinyExponent ≤ k
  · rw [centsOfNearest, nearest_eq_self hc hk]
  -- an exponent this small makes it next to nothing
  have hsmall : (c : ℚ) * 10 ^ k < 10 ^ (-3 : ℤ) := by
    refine (natCast_mul_lt hc k).trans_le (ten_zpow_le_iff.2 ?_)
    have htiny : tinyExponent = -1000026 := rfl
    have hprec : precision = 28 := rfl
    omega
  obtain ⟨hleft, hright⟩ := centsOfNearest_of_small hx hsmall
  rw [hleft, hright]

/-- Both roundings together change a number by half a cent and a tenth of that at most. -/
theorem abs_cents_sub_le (hx : 0 ≤ x) (h : centsOfNearest x < 10 ^ 28) :
    |(centsOfNearest x : ℚ) / 100 - x| ≤ 0.0055 := by
  have hround := abs_le.1 (abs_roundHalfUp_sub_le (nearest x * 100))
  rw [← centsOfNearest] at hround
  rcases lt_or_ge x ((10 : ℚ) ^ (25 : ℤ)) with hsmall | hlarge
  · -- three places are left for the second rounding
    have herror := abs_le.1 (abs_nearest_sub_le_of_lt hx hsmall (by decide))
    norm_num [precision] at herror
    rw [abs_le]
    constructor <;> linarith
  · -- only the cents themselves are left, so the second rounding does nothing
    have hlt : x < (10 : ℚ) ^ (26 : ℤ) := not_le.1 fun hle => (le_centsOfNearest hle).not_gt h
    have hplace : lastPlace x = -2 := by
      have hlog : Int.log 10 x = 25 := log_eq_of_between hlarge hlt
      rw [lastPlace, hlog]
      rfl
    have hexact : centsOfNearest x = roundEven (x / 10 ^ (-2 : ℤ)) := by
      have hunits : nearest x * 100 = roundEven (x / 10 ^ (-2 : ℤ)) := by
        rw [nearest, hplace, mul_assoc]
        norm_num
      rw [centsOfNearest, hunits, roundHalfUp_intCast]
    have herror := abs_le.1 (abs_nearest_sub_le x)
    rw [nearest, hplace, ← hexact] at herror
    norm_num at herror
    rw [abs_le]
    constructor <;> linarith

end Twice

/-! ## Results of arithmetic -/

section Sign

variable {x : ℚ}

/-- The sign goes in front of what is rounded. -/
theorem sign_mul_nearest (negative : Bool) (h : 0 ≤ x) :
    SignType.sign (if negative then -x else x) * nearest |if negative then -x else x| =
      if negative then -nearest x else nearest x := by
  rcases h.eq_or_lt with rfl | hpos
  · simp [nearest_zero]
  · cases negative
    · simp [sign_pos hpos, abs_of_pos hpos]
    · simp [sign_neg (neg_lt_zero.2 hpos), abs_of_pos hpos]

theorem sign_mul_nearest_of_nonneg (h : 0 ≤ x) : SignType.sign x * nearest |x| = nearest x :=
  sign_mul_nearest false h

end Sign

namespace Decimal

/-- An operation with a given exact result: it gives what is nearest to that, with its sign, unless
the limit of rounding is reached. -/
structure Computes (r : Except Signal Decimal) (x : ℚ) : Prop where
  value : ∀ d, r = .ok d → d.value = SignType.sign x * nearest |x|
  limit : ∀ signal, r = .error signal → overflowLimit ≤ |x|

variable {negative : Bool} {num den : Nat} {ideal : Int} {a b d : Decimal}
  {r : Except Signal Decimal} {x : ℚ}

theorem computes_round (hden : 0 < den) :
    Computes (round negative num den ideal)
      (if negative then -((num : ℚ) / den * 10 ^ ideal) else (num : ℚ) / den * 10 ^ ideal) where
  value d h := by
    have hnonneg : (0 : ℚ) ≤ (num : ℚ) / den * 10 ^ ideal := by positivity
    rw [sign_mul_nearest negative hnonneg, ← size_of_round hden h, value,
      negative_of_round_eq_ok h]
  limit signal h := by
    have hlimit := ((round_eq_error_iff hden).1 h).2
    have habs := hlimit.trans (le_abs_self _)
    split
    · rwa [abs_neg]
    · exact habs

theorem computes_mul (a b : Decimal) : Computes (a.mul b) (a.value * b.value) := by
  have hvalue : a.value * b.value =
      if a.negative != b.negative then -(a.size * b.size) else a.size * b.size := by
    unfold value
    cases a.negative <;> cases b.negative <;> simp
  rw [hvalue, ← value_mul]
  exact computes_round Nat.one_pos

theorem computes_div (hb : b.isZero = false) : Computes (a.div b) (a.value / b.value) := by
  have hvalue : a.value / b.value =
      if a.negative != b.negative then -(a.size / b.size) else a.size / b.size := by
    unfold value
    cases a.negative <;> cases b.negative <;> simp [neg_div, div_neg]
  rw [hvalue, ← value_div, div, if_neg (by simp [hb])]
  exact computes_round (coefficient_pos hb)

namespace Computes

variable {amount : Amount}

theorem value_of_nonneg (h : Computes r x) (hx : 0 ≤ x) (hd : r = .ok d) :
    d.value = nearest x := by
  rw [h.value d hd, sign_mul_nearest_of_nonneg hx]

/-- Without its sign, it is what is nearest to the exact result without its sign. -/
theorem size (h : Computes r x) (hd : r = .ok d) : d.size = nearest |x| := by
  rw [← abs_value, h.value d hd, abs_mul, abs_of_nonneg (nearest_nonneg (abs_nonneg x))]
  rcases lt_trichotomy x 0 with hx | rfl | hx
  · simp [sign_neg hx]
  · simp [nearest_zero]
  · simp [sign_pos hx]

/-- There is a result below the limit of rounding. -/
theorem exists_eq_ok (h : Computes r x) (hlt : |x| < overflowLimit) : ∃ d, r = .ok d := by
  cases hr : r with
  | error signal => exact absurd (h.limit signal hr) hlt.not_ge
  | ok d => exact ⟨d, rfl⟩

/-- An amount has the sign of the exact result. -/
theorem signedCents (h : Computes r x) (hd : r = .ok d) (hround : Amount.round d = .ok amount) :
    amount.signedCents = SignType.sign x * centsOfNearest |x| := by
  rw [Amount.signedCents_of_round hround, h.value d hd,
    inCents_sign_mul (nearest_nonneg (abs_nonneg _)), centsOfNearest]

theorem signedCents_of_nonneg (h : Computes r x) (hx : 0 ≤ x) (hd : r = .ok d)
    (hround : Amount.round d = .ok amount) : amount.signedCents = centsOfNearest x := by
  rw [Amount.signedCents_of_round hround, h.value_of_nonneg hx hd,
    inCents_of_nonneg (nearest_nonneg hx), centsOfNearest]

/-- There is an amount unless it has too many digits, be it as a decimal or in cents. -/
theorem exists_amount_iff (h : Computes r x) :
    (∃ d a, r = .ok d ∧ Amount.round d = .ok a) ↔ centsOfNearest |x| < 10 ^ 28 := by
  have hcents : ∀ d, r = .ok d → |inCents d.value| = centsOfNearest |x| := by
    intro d hd
    rw [abs_inCents, Decimal.abs_value, h.size hd, centsOfNearest]
  constructor
  · rintro ⟨d, a, hd, ha⟩
    rw [← hcents d hd]
    exact Amount.exists_round_iff.1 ⟨a, ha⟩
  · intro hfits
    obtain ⟨d, hd⟩ := h.exists_eq_ok (not_le.1 fun hlimit =>
      (le_centsOfNearest (units_le_overflowLimit.trans hlimit)).not_gt hfits)
    rw [← hcents d hd] at hfits
    obtain ⟨a, ha⟩ := Amount.exists_round_iff.2 hfits
    exact ⟨d, a, hd, ha⟩

end Computes

end Decimal

end Billing
