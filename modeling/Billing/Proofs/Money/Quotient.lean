import Billing.Proofs.Given
import Billing.Proofs.Money.Product

set_option autoImplicit false

/-! # Quotients by whole numbers are rounded once

A quotient of money is rounded to 28 digits before it is rounded to cents. This does no harm if the
divisor is a whole number and the amount is below `10 ^ 25`: a quotient of cents that is not half a
cent is too far from every half for 28 digits to reach it (`one_div_le_abs_sub_half`), and a half
itself has few enough digits to be kept. So the quotient is the exact one, rounded to cents
(`Money.divide_rounds_once`).
-/

namespace Billing

open Decimal

section Cents

variable {cents n : ℕ} {x : ℚ} {m : ℤ}

/-- A fraction that is not a half is at least one part of twice its denominator away from it. -/
theorem one_div_le_abs_sub_half (hn : 0 < n) (hne : (cents : ℚ) / n ≠ m - 1 / 2) :
    1 / (2 * n : ℚ) ≤ |(cents : ℚ) / n - (m - 1 / 2)| := by
  have hn' : (0 : ℚ) < n := Nat.cast_pos.2 hn
  obtain ⟨z, hz⟩ : ∃ z : ℤ, z = 2 * cents - (2 * m - 1) * n := ⟨_, rfl⟩
  have hdiff : (cents : ℚ) / n - (m - 1 / 2) = z / (2 * n) := by
    rw [hz]
    push_cast
    field_simp
  have hz0 : z ≠ 0 := by
    rintro rfl
    rw [Int.cast_zero, zero_div, sub_eq_zero] at hdiff
    exact hne hdiff
  have hone : (1 : ℚ) ≤ |(z : ℚ)| := by exact_mod_cast Int.one_le_abs hz0
  rw [hdiff, abs_div, abs_of_pos (show (0 : ℚ) < 2 * n by linarith)]
  exact div_le_div_of_nonneg_right hone (by linarith)

/-- Half a cent is a multiple of the unit that numbers below `10 ^ 25` are rounded to. -/
theorem exists_half_cent_eq_mul (m : ℤ) (hplace : lastPlace x ≤ -3) :
    ∃ k : ℤ, ((m : ℚ) - 1 / 2) / 100 = k * 10 ^ lastPlace x := by
  obtain ⟨k, hk⟩ := exists_zpow_eq_mul hplace
  refine ⟨(10 * m - 5) * k, ?_⟩
  rw [Int.cast_mul, mul_assoc, ← hk]
  push_cast
  norm_num
  ring

/-- What is not below half a cent is not brought below it. -/
theorem half_cent_le_nearest (hplace : lastPlace x ≤ -3) (h : ((m : ℚ) - 1 / 2) / 100 ≤ x) :
    ((m : ℚ) - 1 / 2) / 100 ≤ nearest x := by
  obtain ⟨k, hk⟩ := exists_half_cent_eq_mul m hplace
  rw [hk] at h ⊢
  exact mul_le_nearest h

/-- What is below half a cent is not brought up to it, if it is far enough away. -/
theorem nearest_lt_half_cent (hn : 0 < n) (hsmall : cents < 10 ^ 27)
    (hnormal : (10 : ℚ) ^ minExponent ≤ cents / n / 100)
    (h : (cents : ℚ) / n < m - 1 / 2) : nearest (cents / n / 100) * 100 < m - 1 / 2 := by
  have hn' : (0 : ℚ) < n := Nat.cast_pos.2 hn
  have hgap := one_div_le_abs_sub_half hn h.ne
  rw [abs_of_neg (sub_neg.2 h)] at hgap
  have herror := (abs_le.1 (abs_nearest_sub_le_mul hnormal)).2
  have hbound : (cents : ℚ) / n * 10 ^ (1 - precision : ℤ) < 1 / n := by
    have hcents : (cents : ℚ) < 10 ^ 27 := by exact_mod_cast hsmall
    rw [div_mul_eq_mul_div, div_lt_div_iff_of_pos_right hn']
    norm_num [precision]
    linarith
  have hhalf : 1 / (2 * n : ℚ) = 1 / n / 2 := by
    rw [div_div, mul_comm]
  linarith

/-- A quotient of cents comes to the same amount, whether it is rounded to 28 digits before or
not. -/
theorem centsOfNearest_quotient (hn : 0 < n) (hsmall : cents < 10 ^ 27) :
    centsOfNearest (cents / n / 100) = roundHalfUp (cents / n) := by
  have hn' : (1 : ℚ) ≤ n := by exact_mod_cast hn
  have hcents : (cents : ℚ) < 10 ^ 27 := by exact_mod_cast hsmall
  have hnonneg : (0 : ℚ) ≤ cents / n / 100 := by positivity
  have hunits : (cents : ℚ) / n / 100 * 100 = cents / n := div_mul_cancel₀ _ (by norm_num)
  rcases lt_or_ge ((cents : ℚ) / n / 100) (10 ^ (-3 : ℤ)) with htiny | hlarge
  · obtain ⟨hleft, hright⟩ := centsOfNearest_of_small hnonneg htiny
    rw [hleft, ← hunits, hright]
  · have hnormal := (ten_zpow_le_iff.2 (by decide : minExponent ≤ -3)).trans hlarge
    have hplace : lastPlace ((cents : ℚ) / n / 100) ≤ -3 := by
      refine lastPlace_le hnormal (k := 25) ?_
      have hle : (cents : ℚ) / n ≤ cents := div_le_self (Nat.cast_nonneg _) hn'
      norm_num
      linarith
    obtain ⟨m, hm⟩ : ∃ m, roundHalfUp ((cents : ℚ) / n) = m := ⟨_, rfl⟩
    obtain ⟨hlower, hupper⟩ := roundHalfUp_eq_iff.1 hm
    rw [centsOfNearest, hm, roundHalfUp_eq_iff]
    constructor
    · have hle := half_cent_le_nearest (m := m) hplace (by linarith)
      linarith
    · have hlt := nearest_lt_half_cent (m := m + 1) hn hsmall hnormal (by push_cast; linarith)
      push_cast at hlt
      linarith

end Cents

namespace Money

variable {m : Money} {divisor : Given} {d : Decimal} {n : ℤ}

theorem abs_value (m : Money) : |m.value| = m.amount.cents / 100 := by
  rw [← value_toDecimal, Decimal.abs_value, Amount.size_toDecimal]
  norm_num
  ring

/-- For a whole divisor, only the second rounding does anything. -/
theorem centsOfNearest_value_div (hn : n ≠ 0) (hsmall : |m.value| < 10 ^ 25) :
    centsOfNearest |m.value / n| = roundHalfUp (|m.value / n| * 100) := by
  have hcents : m.amount.cents < 10 ^ 27 := by
    rw [abs_value, div_lt_iff₀ (by norm_num)] at hsmall
    have hcast : (m.amount.cents : ℚ) < 10 ^ 27 := by linarith
    exact_mod_cast hcast
  have hquotient : |m.value / n| = m.amount.cents / n.natAbs / 100 := by
    rw [abs_div, abs_value, Nat.cast_natAbs, Int.cast_abs]
    ring
  rw [hquotient, centsOfNearest_quotient (Int.natAbs_pos.2 hn) hcents,
    div_mul_cancel₀ _ (by norm_num)]

/-- A divisor other than zero gives the amount nearest to the rounded quotient. -/
theorem exists_divide (h : divisor.toDecimal "divisor" = .ok d) (hd : d.isZero = false)
    (hfits : centsOfNearest |m.value / d.value| < 10 ^ 28) :
    ∃ q, m.divide divisor = .ok q ∧ q.currency = m.currency ∧
      q.amount.signedCents = SignType.sign (m.value / d.value) *
        centsOfNearest |m.value / d.value| := by
  have hcomputes : Computes (m.amount.toDecimal.div d) (m.value / d.value) :=
    m.value_toDecimal ▸ computes_div hd
  obtain ⟨quotient, a, hquotient, hround⟩ := hcomputes.exists_amount_iff.2 hfits
  refine ⟨⟨a, m.currency⟩, ?_, rfl, hcomputes.signedCents hquotient hround⟩
  simp [divide, h, hd, hquotient, ofSignal, hround]

theorem divide_zero (h : divisor.toDecimal "divisor" = .ok d) (hd : d.value = 0) :
    m.divide divisor = .error (.invalid "divisor" divisor.shown) := by
  have hzero : d.isZero = true := by
    rw [← size_eq_zero_iff, ← Decimal.abs_value, hd, abs_zero]
  simp [divide, h, hzero]

/-- Divided by a whole number, money below `10 ^ 25` is the exact quotient rounded to cents, a half
cent going away from zero; there always is one. By nothing, however it is given, it cannot be
divided. -/
theorem divide_rounds_once (m : Money) :
    (∀ n : ℤ, n ≠ 0 → |m.value| < 10 ^ 25 → ∃ q, m.divide (.int n) = .ok q ∧
      q.currency = m.currency ∧ q.amount.signedCents = inCents (m.value / n)) ∧
    ∀ divisor d, divisor.decimal? = some d → d.value = 0 →
      m.divide divisor = .error (.invalid "divisor" divisor.shown) := by
  refine ⟨fun n hn hsmall => ?_, fun divisor d h hd => ?_⟩
  · have hround := centsOfNearest_value_div hn hsmall
    have hfits : centsOfNearest |m.value / n| < 10 ^ 28 := by
      have hle : |m.value / n| ≤ |m.value| := by
        rw [abs_div]
        exact div_le_self (abs_nonneg _) (by exact_mod_cast Int.one_le_abs hn)
      rw [hround, roundHalfUp_lt_iff]
      push_cast
      linarith
    have hdivisor : Given.toDecimal "divisor" (.int n) = .ok (ofInt n) :=
      Given.toDecimal_of_decimal? rfl
    have hzero : (ofInt n).isZero = false := decide_eq_false (Int.natAbs_pos.2 hn).ne'
    obtain ⟨q, hq, hcurrency, hcents⟩ := exists_divide (m := m) hdivisor hzero
      (by rwa [value_ofInt])
    rw [value_ofInt, hround, ← inCents] at hcents
    exact ⟨q, hq, hcurrency, hcents⟩
  · exact divide_zero (Given.toDecimal_of_decimal? h) hd

/-- Half of five cents below zero goes away from zero, and a text that reads as zero is refused. -/
theorem divide_rounds_once_sample :
    (2 : ℤ) ≠ 0 ∧ |value ⟨⟨true, 5, by decide⟩, .usd⟩| < 10 ^ 25 ∧
      (∃ q, divide ⟨⟨true, 5, by decide⟩, .usd⟩ (.int 2) = .ok q ∧
        q.amount.signedCents = inCents (-1 / 40)) ∧ inCents (-1 / 40) = -3 ∧
      (Given.text " -0.00 ").decimal? = some ⟨true, 0, -2⟩ ∧
      divide ⟨⟨true, 5, by decide⟩, .usd⟩ (.text " -0.00 ") =
        .error (.invalid "divisor" " -0.00 ") := by
  have hvalue : value ⟨⟨true, 5, by decide⟩, .usd⟩ = -1 / 20 := by
    norm_num [value, Amount.value, Amount.signedCents]
  have hcents : inCents (-1 / 40) = -3 := by
    have hround : roundHalfUp (1 / 40 * 100) = 3 := by
      rw [roundHalfUp_eq_iff]
      norm_num
    rw [neg_div, inCents_neg, inCents_of_nonneg (by norm_num), hround]
  have hsmall : |value ⟨⟨true, 5, by decide⟩, .usd⟩| < 10 ^ 25 := by
    rw [hvalue]
    norm_num [abs_of_neg]
  have hzero : (Given.text " -0.00 ").decimal? = some ⟨true, 0, -2⟩ := by decide +kernel
  obtain ⟨hdivide, hrefused⟩ := divide_rounds_once ⟨⟨true, 5, by decide⟩, .usd⟩
  obtain ⟨q, hq, -, hquotient⟩ := hdivide 2 (by decide) hsmall
  refine ⟨by decide, hsmall, ⟨q, hq, ?_⟩, hcents, hzero, ?_⟩
  · rw [hquotient, hvalue]
    norm_num
  · exact hrefused _ _ hzero (by norm_num [Decimal.value, size])

/-- From `10 ^ 25` on, a half that is not reached can be reached by 28 digits: this quotient is
below nine and a half cents. -/
example : (divide ⟨⟨false, 9500000000000000000000000009, by decide⟩, .usd⟩
    (.int (10 ^ 27 + 1))).map (·.amount.signedCents) = .ok 10 := by decide +kernel

end Money

end Billing
