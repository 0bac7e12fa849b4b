import Billing.Proofs.Decimal.Whole

set_option autoImplicit false

/-! # When rounding overflows

The size of a decimal is a rational number (`Decimal.size`). Rounding a quotient fails exactly when
the quotient is so large that it would be rounded to a power of ten beyond the exponent range, and
in no other way (`Decimal.round_eq_error_iff`); so do the product, the quotient and the normal form
of decimals.
-/

namespace Billing

/-! ## Rounding to a whole number -/

section Whole

variable {num den m : Nat} {shift : Int}

/-- An even number is reached from a half below it on, since ties go to it. -/
theorem le_scaleRound_toEven_iff (hden : 0 < den) (heven : m % 2 = 0) :
    m ≤ scaleRound .toEven num den shift ↔
      (m : ℚ) - 1 / 2 ≤ (num : ℚ) / den * (10 : ℚ) ^ shift := by
  have heven' : Even (m : ℤ) := (Int.even_coe_nat m).2 (Nat.even_iff.2 heven)
  rw [← Int.ofNat_le, scaleRound_toEven num hden, le_roundEven_iff, le_iff_lt_or_eq]
  simp only [heven', true_and, Int.cast_natCast]

/-- Rounding does not go below a whole number that is not below the quotient. -/
theorem le_scaleRound (hden : 0 < den) (h : (m : ℚ) ≤ (num : ℚ) / den * (10 : ℚ) ^ shift) :
    m ≤ scaleRound .toEven num den shift := by
  rw [← Int.ofNat_le, scaleRound_toEven num hden, le_roundEven_iff, Int.cast_natCast]
  exact .inl (by linarith)

/-- Rounding does not go above a whole number that is above the quotient. -/
theorem scaleRound_le (hden : 0 < den) (h : (num : ℚ) / den * (10 : ℚ) ^ shift < m) :
    scaleRound .toEven num den shift ≤ m := by
  rw [← Int.ofNat_le, scaleRound_toEven num hden, ← roundEven_intCast m]
  exact roundEven_mono h.le

end Whole

namespace Digits

/-- A number other than zero lies between the powers of ten that its digits say. -/
theorem cast_between {n : Nat} (h : 0 < n) :
    (10 : ℚ) ^ ((count n : Int) - 1) ≤ n ∧ (n : ℚ) < (10 : ℚ) ^ (count n : Int) := by
  constructor
  · have hle := Nat.cast_le (α := ℚ).2 (tenTo_le_of_pos h)
    rwa [cast_tenTo, Nat.cast_sub (count_pos n), Nat.cast_one] at hle
  · rw [← cast_tenTo]
    exact_mod_cast lt_tenTo_count n

end Digits

namespace Decimal

variable {negative : Bool} {num den : Nat} {ideal : Int} {signal : Signal} {d : Decimal}

/-! ## The leading digit -/

/-- The exponent of the leading digit puts a quotient between two powers of ten. -/
theorem leadingExponent_spec (hnum : 0 < num) (hden : 0 < den) :
    (10 : ℚ) ^ leadingExponent num den ≤ (num : ℚ) / den ∧
      (num : ℚ) / den < (10 : ℚ) ^ (leadingExponent num den + 1) := by
  have hden' : (0 : ℚ) < den := by exact_mod_cast hden
  obtain ⟨hnumLower, hnumUpper⟩ := Digits.cast_between hnum
  obtain ⟨hdenLower, hdenUpper⟩ := Digits.cast_between hden
  obtain ⟨k, hk⟩ : ∃ k : Int, k = (Digits.count num : Int) - Digits.count den := ⟨_, rfl⟩
  -- the digits leave two powers of ten, one of which is the right one
  have hlower : (10 : ℚ) ^ (k - 1) ≤ (num : ℚ) / den := by
    rw [le_div_iff₀ hden']
    calc (10 : ℚ) ^ (k - 1) * den ≤ 10 ^ (k - 1) * 10 ^ (Digits.count den : Int) :=
          mul_le_mul_of_nonneg_left hdenUpper.le (ten_zpow_pos _).le
      _ = 10 ^ ((Digits.count num : Int) - 1) := by
          rw [← ten_zpow_add]
          congr 1
          omega
      _ ≤ num := hnumLower
  have hupper : (num : ℚ) / den < (10 : ℚ) ^ (k + 1) := by
    rw [div_lt_iff₀ hden']
    calc (num : ℚ) < 10 ^ (Digits.count num : Int) := hnumUpper
      _ = 10 ^ (k + 1) * 10 ^ ((Digits.count den : Int) - 1) := by
          rw [← ten_zpow_add]
          congr 1
          omega
      _ ≤ 10 ^ (k + 1) * den := mul_le_mul_of_nonneg_left hdenLower (ten_zpow_pos _).le
  have htest : den * tenTo k.toNat ≤ num * tenTo (-k).toNat ↔ (10 : ℚ) ^ k ≤ (num : ℚ) / den := by
    have hsplit : (10 : ℚ) ^ (k.toNat : Int) = 10 ^ k * 10 ^ ((-k).toNat : Int) := by
      rw [← ten_zpow_add]
      congr 1
      omega
    rw [← Nat.cast_le (α := ℚ), Nat.cast_mul, Nat.cast_mul, cast_tenTo, cast_tenTo, hsplit,
      le_div_iff₀ hden', ← mul_assoc, mul_le_mul_iff_left₀ (ten_zpow_pos _), mul_comm (den : ℚ)]
  simp only [leadingExponent, ← hk]
  split
  next h => exact ⟨htest.1 h, hupper⟩
  next h =>
    rw [htest, not_le] at h
    rw [sub_add_cancel]
    exact ⟨hlower, h⟩

/-! ## The exponent of the result -/

/-- Trailing zeros that are dropped from the coefficient go into the exponent. -/
theorem count_dropZeros {c : Nat} (h : 0 < c) (n : Nat) :
    (dropZeros n c).2 + Digits.count (dropZeros n c).1 = Digits.count c := by
  induction n generalizing c with
  | zero => simp [dropZeros]
  | succ n ih =>
      rw [dropZeros]
      split
      next hzero =>
        have hlong : ¬ c < 10 := by omega
        have hcount : Digits.count c = Digits.count (c / 10) + 1 := by
          rw [Digits.count, if_neg hlong]
        have hrest := ih (c := c / 10) (by omega)
        dsimp only
        omega
      next => simp

/-- A result is too large when its leading digit is. -/
theorem round_eq_error_iff_count (hnum : 0 < num) {e : Int} {c : Nat}
    (he : e = max (leadingExponent num den + ideal - (precision - 1)) tinyExponent)
    (hc : c = scaleRound .toEven num den (ideal - e)) :
    round negative num den ideal = .error signal ↔
      signal = .overflow ∧ maxExponent < e + Digits.count c - 1 := by
  unfold round
  rw [if_neg hnum.ne']
  extract_lets lead e' c' rounded exact trimmed result
  obtain rfl : e' = e := he.symm
  obtain rfl : c' = c := hc.symm
  have hrounded : rounded.2 + (Digits.count rounded.1 : Int) = e' + Digits.count c' := by
    by_cases htop : c' = tenTo precision
    · simp only [rounded, if_pos htop]
      rw [htop, Digits.count_tenTo, Digits.count_tenTo]
      simp only [precision]
      omega
    · simp only [rounded, if_neg htop]
  have htrimmed : trimmed.2 + Digits.count trimmed.1 = Digits.count rounded.1 := by
    rcases Nat.eq_zero_or_pos rounded.1 with hzero | hpos
    · -- a coefficient of zero is not exact, so it keeps its exponent
      have hc' : c' = 0 := by
        by_contra hne
        by_cases htop : c' = tenTo precision
        · simp only [rounded, if_pos htop] at hzero
          exact (tenTo_pos _).ne' hzero
        · simp only [rounded, if_neg htop] at hzero
          exact hne hzero
      have hinexact : exact = false := by
        have hne : num * tenTo (ideal - e').toNat ≠ 0 :=
          (Nat.mul_pos hnum (tenTo_pos _)).ne'
        simp [exact, hc', hne]
      simp only [trimmed, hinexact, Bool.false_eq_true, if_false, dropZeros_zero]
      omega
    · exact count_dropZeros hpos _
  have hadjusted : result.adjusted = e' + Digits.count c' - 1 := by
    simp only [result, adjusted, digits]
    omega
  rw [hadjusted]
  split
  next h => simp [h, eq_comm]
  next h => simp [h]

/-! ## The limit -/

/-- From here on a number is rounded to a power of ten that is too large: it is half a unit in the
last place below that power. -/
def overflowLimit : ℚ :=
  ((10 : ℚ) ^ (precision : Int) - 1 / 2) * (10 : ℚ) ^ (maxExponent + 1 - precision)

theorem overflowLimit_le : overflowLimit ≤ (10 : ℚ) ^ (maxExponent + 1) := by
  have hsplit : (10 : ℚ) ^ (maxExponent + 1) =
      10 ^ (precision : Int) * 10 ^ (maxExponent + 1 - precision) := by
    rw [← ten_zpow_add, add_sub_cancel]
  rw [overflowLimit, hsplit]
  exact mul_le_mul_of_nonneg_right (by linarith) (ten_zpow_pos _).le

theorem le_overflowLimit : (10 : ℚ) ^ maxExponent ≤ overflowLimit := by
  have hsplit : (10 : ℚ) ^ maxExponent =
      10 ^ ((precision : Int) - 1) * 10 ^ (maxExponent + 1 - precision) := by
    rw [← ten_zpow_add]
    congr 1
  rw [overflowLimit, hsplit]
  refine mul_le_mul_of_nonneg_right ?_ (ten_zpow_pos _).le
  norm_num [precision]

theorem overflowLimit_pos : 0 < overflowLimit := (ten_zpow_pos _).trans_le le_overflowLimit

section Precision

variable {shift : Int}

/-- With fewer digits in front of the point than the precision, rounding makes at most one more. -/
theorem count_scaleRound_le (hden : 0 < den)
    (h : (num : ℚ) / den * 10 ^ shift < 10 ^ (precision : Int)) :
    Digits.count (scaleRound .toEven num den shift) ≤ precision + 1 := by
  rw [← cast_tenTo] at h
  rw [Digits.count_le_iff (Nat.succ_pos _)]
  exact (scaleRound_le hden h).trans_lt (tenTo_lt_tenTo_iff.2 (Nat.lt_succ_self _))

theorem le_count_scaleRound (hden : 0 < den)
    (h : (10 : ℚ) ^ ((precision - 1 : Nat) : Int) ≤ (num : ℚ) / den * 10 ^ shift) :
    precision ≤ Digits.count (scaleRound .toEven num den shift) := by
  rw [← cast_tenTo] at h
  have hlarge : tenTo (precision - 1) ≤ scaleRound .toEven num den shift := le_scaleRound hden h
  exact Nat.le_of_pred_lt ((Digits.lt_count_iff (by decide)).2 hlarge)

/-- There is one digit more than the precision from half a unit below a power of ten on. -/
theorem lt_count_scaleRound_iff (hden : 0 < den) :
    precision < Digits.count (scaleRound .toEven num den shift) ↔
      (10 : ℚ) ^ (precision : Int) - 1 / 2 ≤ (num : ℚ) / den * 10 ^ shift := by
  have heven : tenTo precision % 2 = 0 := by decide
  rw [Digits.lt_count_iff (by decide), le_scaleRound_toEven_iff hden heven,
    cast_tenTo]

end Precision

/-- Rounding fails exactly from the limit on, and always because the result is too large. -/
theorem round_eq_error_iff (hden : 0 < den) :
    round negative num den ideal = .error signal ↔
      signal = .overflow ∧ overflowLimit ≤ (num : ℚ) / den * (10 : ℚ) ^ ideal := by
  rcases Nat.eq_zero_or_pos num with rfl | hnum
  · rw [round_zero]
    refine iff_of_false nofun fun h => ?_
    have hlimit := h.2
    rw [Nat.cast_zero, zero_div, zero_mul] at hlimit
    exact hlimit.not_gt overflowLimit_pos
  obtain ⟨x, hx⟩ : ∃ x, x = (num : ℚ) / den * (10 : ℚ) ^ ideal := ⟨_, rfl⟩
  obtain ⟨lead, hlead⟩ : ∃ lead, lead = leadingExponent num den + ideal := ⟨_, rfl⟩
  obtain ⟨e, he⟩ : ∃ e, e = max (lead - (precision - 1)) tinyExponent := ⟨_, rfl⟩
  obtain ⟨c, hc⟩ : ∃ c, c = scaleRound .toEven num den (ideal - e) := ⟨_, rfl⟩
  obtain ⟨hlower, hupper⟩ : (10 : ℚ) ^ lead ≤ x ∧ x < (10 : ℚ) ^ (lead + 1) := by
    obtain ⟨hlow, hup⟩ := leadingExponent_spec hnum hden
    have hnext : lead + 1 = leadingExponent num den + 1 + ideal := by omega
    rw [hx, hnext, hlead, ten_zpow_add, ten_zpow_add _ ideal]
    exact ⟨mul_le_mul_of_nonneg_right hlow (ten_zpow_pos _).le,
      mul_lt_mul_of_pos_right hup (ten_zpow_pos _)⟩
  -- the quotient at the exponent of the result
  have hscaled : (num : ℚ) / den * (10 : ℚ) ^ (ideal - e) = x / 10 ^ e := by
    rw [hx, sub_eq_add_neg, ten_zpow_add, zpow_neg]
    ring
  rw [round_eq_error_iff_count hnum (hlead ▸ he) hc, ← hx]
  refine and_congr_right fun _ => ?_
  have hcount : Digits.count c ≤ precision + 1 := by
    rw [hc]
    refine count_scaleRound_le hden ?_
    rw [hscaled, div_lt_iff₀ (ten_zpow_pos e), ← ten_zpow_add]
    exact hupper.trans_le (ten_zpow_le_iff.2 (by omega))
  have hprec : precision = 28 := rfl
  have htiny : tinyExponent = -1000026 := rfl
  have hmax : maxExponent = 999999 := rfl
  rcases lt_trichotomy lead maxExponent with hsmall | hedge | hlarge
  · -- even if it is rounded up to a power of ten, it is not too large
    refine iff_of_false (by omega) (not_le.2 ?_)
    calc x < 10 ^ (lead + 1) := hupper
      _ ≤ 10 ^ maxExponent := ten_zpow_le_iff.2 hsmall
      _ ≤ overflowLimit := le_overflowLimit
  · -- it is too large exactly if it is rounded up to a power of ten
    have hunit : maxExponent + 1 - precision = e := by omega
    have hlong : maxExponent < e + Digits.count c - 1 ↔ precision < Digits.count c := by omega
    rw [hlong, hc, lt_count_scaleRound_iff hden, hscaled, le_div_iff₀ (ten_zpow_pos e),
      overflowLimit, hunit]
  · have hlong : precision ≤ Digits.count c := by
      rw [hc]
      refine le_count_scaleRound hden ?_
      rw [hscaled, le_div_iff₀ (ten_zpow_pos e), ← ten_zpow_add]
      exact (ten_zpow_le_iff.2 (by omega)).trans hlower
    refine iff_of_true (by omega) ?_
    calc overflowLimit ≤ 10 ^ (maxExponent + 1) := overflowLimit_le
      _ ≤ 10 ^ lead := ten_zpow_le_iff.2 hlarge
      _ ≤ x := hlower

/-- The leading digit of a result is in the range. -/
theorem adjusted_le_of_round (h : round negative num den ideal = .ok d) :
    d.adjusted ≤ maxExponent := by
  by_cases hzero : num = 0
  · rw [hzero, round_zero] at h
    obtain rfl := Except.ok.inj h
    have hle : tinyExponent ≤ maxExponent := by decide
    simp only [adjusted, digits, Digits.count_of_lt_ten (show 0 < 10 by decide)]
    omega
  · rw [round, if_neg hzero] at h
    extract_lets lead e c rounded exact trimmed result at h
    split at h
    next => cases h
    next hle =>
      obtain rfl := Except.ok.inj h
      exact not_lt.1 hle

/-! ## Operations -/

/-- The value without its sign. -/
def size (d : Decimal) : ℚ := d.coefficient * (10 : ℚ) ^ d.exponent

theorem size_nonneg (d : Decimal) : 0 ≤ d.size :=
  mul_nonneg (Nat.cast_nonneg _) (ten_zpow_pos _).le

theorem size_of_coefficient_eq_zero (h : d.coefficient = 0) : d.size = 0 := by
  rw [size, h, Nat.cast_zero, zero_mul]

theorem size_ofInt (n : Int) : (ofInt n).size = n.natAbs := by
  rw [size, ofInt, zpow_zero, mul_one]

theorem size_lt (d : Decimal) : d.size < (10 : ℚ) ^ (d.adjusted + 1) := by
  have hlt : (d.coefficient : ℚ) < 10 ^ (d.digits : Int) := by
    rw [← cast_tenTo]
    exact_mod_cast Digits.lt_tenTo_count d.coefficient
  have hexponent : d.adjusted + 1 = d.digits + d.exponent := by
    rw [adjusted]
    omega
  rw [size, hexponent, ten_zpow_add]
  exact mul_lt_mul_of_pos_right hlt (ten_zpow_pos _)

/-- The exact product, as it is rounded. -/
theorem value_mul (a b : Decimal) :
    ((a.coefficient * b.coefficient : Nat) : ℚ) / (1 : Nat) * (10 : ℚ) ^ (a.exponent + b.exponent) =
      a.size * b.size := by
  rw [ten_zpow_add, size, size]
  push_cast
  ring

/-- The exact quotient, as it is rounded. -/
theorem value_div (a b : Decimal) :
    (a.coefficient : ℚ) / b.coefficient * (10 : ℚ) ^ (a.exponent - b.exponent) =
      a.size / b.size := by
  rw [sub_eq_add_neg, ten_zpow_add, zpow_neg, size, size, ← div_eq_mul_inv, div_mul_div_comm]

theorem coefficient_pos {d : Decimal} (h : d.isZero = false) : 0 < d.coefficient := by
  simp only [isZero, decide_eq_false_iff_not] at h
  omega

theorem mul_eq_error_iff {a b : Decimal} :
    a.mul b = .error signal ↔ signal = .overflow ∧ overflowLimit ≤ a.size * b.size := by
  rw [mul, round_eq_error_iff Nat.one_pos, value_mul]

theorem div_eq_error_iff {a b : Decimal} (hb : b.isZero = false) :
    a.div b = .error signal ↔ signal = .overflow ∧ overflowLimit ≤ a.size / b.size := by
  rw [div, if_neg (by simp [hb]), round_eq_error_iff (coefficient_pos hb), value_div]

theorem normalize_eq_error_iff :
    d.normalize = .error signal ↔ signal = .overflow ∧ overflowLimit ≤ d.size := by
  have hsize : (d.coefficient : ℚ) / (1 : Nat) * (10 : ℚ) ^ d.exponent = d.size := by
    rw [Nat.cast_one, div_one, size]
  have hround : round d.negative d.coefficient 1 d.exponent = .error signal ↔
      signal = .overflow ∧ overflowLimit ≤ d.size := by
    rw [round_eq_error_iff Nat.one_pos, hsize]
  rw [← hround, normalize]
  -- trailing zeros are dropped from a result without failing
  cases round d.negative d.coefficient 1 d.exponent with
  | error s => rfl
  | ok r =>
      refine iff_of_false ?_ nofun
      show (if r.isZero then _ else _) ≠ _
      split_ifs <;> nofun

end Decimal

end Billing
