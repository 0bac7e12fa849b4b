import Billing.Decimal.Arithmetic
import Billing.Proofs.Decimal.Digits

set_option autoImplicit false

/-! # When rounding changes nothing

A whole number times a power of ten is a decimal as it stands as long as it has no more digits than
arithmetic works with (`round_of_count_le`); with more digits than that, rounding leaves exactly the
working precision and a larger exponent (`round_of_lt_count`).
-/

namespace Billing

theorem divRound_one (tie : Tie) (n : Nat) : divRound tie n 1 = n := by
  simp [divRound, Nat.mod_one]

/-- Rounding a quotient never goes below its whole part. -/
theorem div_le_divRound (tie : Tie) (num den : Nat) : num / den ≤ divRound tie num den := by
  unfold divRound
  cases tie <;> dsimp only <;> split_ifs <;> omega

theorem divRound_le (tie : Tie) (num den : Nat) : divRound tie num den ≤ num / den + 1 := by
  unfold divRound
  cases tie <;> dsimp only <;> split_ifs <;> omega

theorem scaleRound_natCast (tie : Tie) (num den k : Nat) :
    scaleRound tie num den k = divRound tie (num * tenTo k) den := rfl

namespace Decimal

variable {negative : Bool} {num den : Nat} {ideal : Int} {d : Decimal}

theorem dropZeros_zero (c : Nat) : dropZeros 0 c = (c, 0) := rfl

theorem dropZeros_mul_tenTo (k c : Nat) : dropZeros k (c * tenTo k) = (c, k) := by
  induction k with
  | zero => simp [dropZeros, tenTo_zero]
  | succ k ih =>
      -- the coefficient ends in a zero, which is dropped first
      have hmod : c * tenTo (k + 1) % 10 = 0 := by
        rw [tenTo_succ, ← Nat.mul_assoc, Nat.mul_mod_left]
      have hdiv : c * tenTo (k + 1) / 10 = c * tenTo k := by
        rw [tenTo_succ, ← Nat.mul_assoc, Nat.mul_div_left _ (by decide)]
      rw [dropZeros, if_pos hmod, hdiv, ih]

theorem round_zero (negative : Bool) (den : Nat) (ideal : Int) :
    round negative 0 den ideal = .ok ⟨negative, 0, max tinyExponent (min maxExponent ideal)⟩ :=
  rfl

/-- Rounding keeps the sign. -/
theorem negative_of_round_eq_ok (h : round negative num den ideal = .ok d) :
    d.negative = negative := by
  by_cases hzero : num = 0
  · rw [round, if_pos hzero] at h
    obtain rfl := Except.ok.inj h
    rfl
  · rw [round, if_neg hzero] at h
    extract_lets lead e c rounded exact trimmed result at h
    split at h
    next => cases h
    next =>
      obtain rfl := Except.ok.inj h
      rfl

theorem leadingExponent_one (h : 0 < num) : leadingExponent num 1 = Digits.count num - 1 := by
  have hone : Digits.count 1 = 1 := Digits.count_of_lt_ten (by decide)
  have hpos := Digits.count_pos num
  have hk : ((Digits.count num : Int) - (1 : Nat)).toNat = Digits.count num - 1 := by omega
  have hneg : (-((Digits.count num : Int) - (1 : Nat))).toNat = 0 := by omega
  have hle : 1 * tenTo (Digits.count num - 1) ≤ num * tenTo 0 := by
    simpa [tenTo_zero] using Digits.tenTo_le_of_pos h
  simp only [leadingExponent, hone, hk, hneg, if_pos hle]
  norm_num

/-- What fits into the working precision is not changed by rounding. -/
theorem round_of_count_le (h : 0 < num) (fits : Digits.count num ≤ precision)
    (lower : tinyExponent ≤ ideal) (upper : ideal + Digits.count num - 1 ≤ maxExponent) :
    round negative num 1 ideal = .ok ⟨negative, num, ideal⟩ := by
  have hlead : leadingExponent num 1 = Digits.count num - 1 := leadingExponent_one h
  -- the least exponent at which the coefficient fits is not above the ideal one
  obtain ⟨e, he⟩ : ∃ e, e = max (Digits.count num - 1 + ideal - (precision - 1)) tinyExponent :=
    ⟨_, rfl⟩
  have hle : e ≤ ideal := by
    simp only [precision] at he fits
    omega
  obtain ⟨k, hk⟩ := Int.eq_ofNat_of_zero_le (sub_nonneg.2 hle)
  have hcoeff : scaleRound .toEven num 1 (ideal - e) = num * tenTo k := by
    rw [hk, scaleRound_natCast, divRound_one]
  -- the coefficient has been brought to at most 28 digits, so it is not the power of ten above
  have hlt : num * tenTo k < tenTo precision := by
    have hcount := Digits.lt_tenTo_count num
    have hsum : Digits.count num + k ≤ precision := by
      simp only [precision] at he fits ⊢
      omega
    calc num * tenTo k < tenTo (Digits.count num) * tenTo k :=
          Nat.mul_lt_mul_of_pos_right hcount (tenTo_pos k)
      _ = tenTo (Digits.count num + k) := (tenTo_add _ _).symm
      _ ≤ tenTo precision := tenTo_le_tenTo_iff.2 hsum
  -- the zeros that bring the exponent back to the ideal one are dropped again
  have htrim : dropZeros (if (decide (e < ideal) && num * tenTo (ideal - e).toNat ==
      num * tenTo k * 1) = true then (ideal - e).toNat else 0) (num * tenTo k) = (num, k) := by
    have htoNat : (ideal - e).toNat = k := by omega
    rcases Nat.eq_zero_or_pos k with rfl | hpos
    · simp [htoNat, dropZeros, tenTo_zero]
    · have hexact : e < ideal := by omega
      simp [htoNat, hexact, dropZeros_mul_tenTo]
  unfold round
  rw [if_neg h.ne']
  simp only [hlead, ← he, hcoeff, if_neg hlt.ne, htrim]
  have hideal : e + (k : Int) = ideal := by omega
  simp only [adjusted, digits, hideal]
  rw [if_neg (not_lt.2 upper)]

/-- What does not fit is cut to the working precision, and its exponent grows. -/
theorem round_of_lt_count (long : precision < Digits.count num) (lower : tinyExponent ≤ ideal)
    (h : round negative num 1 ideal = .ok d) : d.digits = precision ∧ ideal < d.exponent := by
  have hprec : precision = 28 := rfl
  have hpos : 0 < num := by
    rcases Nat.eq_zero_or_pos num with rfl | hpos
    · rw [Digits.count_of_lt_ten (by decide)] at long
      omega
    · exact hpos
  have hlead : leadingExponent num 1 = Digits.count num - 1 := leadingExponent_one hpos
  -- `k + 1` digits are too many
  obtain ⟨k, hk⟩ : ∃ k, Digits.count num = precision + (k + 1) :=
    ⟨Digits.count num - precision - 1, by omega⟩
  have he : max ((Digits.count num : Int) - 1 + ideal - (precision - 1)) tinyExponent =
      ideal + (k + 1 : Nat) := by omega
  have hshift : ideal - (ideal + (k + 1 : Nat)) = Int.negSucc k := by
    rw [Int.negSucc_eq]
    push_cast
    ring
  have hcoeff : scaleRound .toEven num 1 (Int.negSucc k) =
      divRound .toEven num (tenTo (k + 1)) := by
    rw [scaleRound, if_neg (by omega), Nat.one_mul]
  -- the rounded coefficient has 28 digits, or it is the power of ten above them
  have hlower : tenTo (precision - 1) ≤ divRound .toEven num (tenTo (k + 1)) := by
    have hsplit : precision - 1 + (k + 1) = Digits.count num - 1 := by omega
    calc tenTo (precision - 1) ≤ num / tenTo (k + 1) := by
          rw [Nat.le_div_iff_mul_le (tenTo_pos _), ← tenTo_add, hsplit]
          exact Digits.tenTo_le_of_pos hpos
      _ ≤ divRound .toEven num (tenTo (k + 1)) := div_le_divRound _ _ _
  have hupper : divRound .toEven num (tenTo (k + 1)) ≤ tenTo precision := by
    calc divRound .toEven num (tenTo (k + 1)) ≤ num / tenTo (k + 1) + 1 := divRound_le _ _ _
      _ ≤ tenTo precision := by
          rw [Nat.succ_le_iff, Nat.div_lt_iff_lt_mul (tenTo_pos _), ← tenTo_add, ← hk]
          exact Digits.lt_tenTo_count num
  unfold round at h
  rw [if_neg hpos.ne'] at h
  simp only [hlead, he, hshift, hcoeff] at h
  have hinexact : ¬ (ideal + ((k + 1 : Nat) : Int) < ideal) := by omega
  simp only [hinexact, decide_false, Bool.false_and, Bool.false_eq_true, if_false,
    dropZeros_zero] at h
  by_cases htop : divRound .toEven num (tenTo (k + 1)) = tenTo precision
  · simp only [htop, if_true] at h
    split at h
    next => cases h
    next =>
      obtain rfl := Except.ok.inj h
      refine ⟨Digits.count_tenTo _, ?_⟩
      push_cast
      omega
  · simp only [htop, if_false] at h
    split at h
    next => cases h
    next =>
      obtain rfl := Except.ok.inj h
      have hlt := lt_of_le_of_ne hupper htop
      refine ⟨Digits.count_eq_of_between hlower hlt, ?_⟩
      push_cast
      omega

end Decimal

end Billing
