import Billing.Proofs.Money.Cents

set_option autoImplicit false

/-! # Rounding half up

A number is rounded to the nearest whole number of cents, and from the middle between two of them to
the one that is farther from zero. `RoundsHalfUp` says so without a word on digits, and it leaves
one result for every number (`roundsHalfUp_iff`). What becomes of the digits of a decimal, zeros
that are added or digits that are cut off, amounts to that (`Numeral.toCents_half_up`).
-/

namespace Billing

/-! ## The result of rounding -/

/-- A whole number of cents that is as near as any, and farther from zero than what is as near. -/
structure RoundsHalfUp (x r : ℚ) : Prop where
  whole : WholeCents r
  nearest : ∀ s, WholeCents s → |r - x| ≤ |s - x|
  ties_away : ∀ s, WholeCents s → |s - x| = |r - x| → |s| ≤ |r|

section Result

variable {x y r s : ℚ}

theorem wholeCents_zero : WholeCents 0 := ⟨0, by norm_num⟩

theorem RoundsHalfUp.unique (h : RoundsHalfUp x r) (h' : RoundsHalfUp x s) : r = s := by
  have hdist : |r - x| = |s - x| := le_antisymm (h.nearest s h'.whole) (h'.nearest r h.whole)
  have hsize : |r| = |s| :=
    le_antisymm (h'.ties_away r h.whole hdist) (h.ties_away s h'.whole hdist.symm)
  rcases abs_eq_abs.1 hsize with hsame | rfl
  · exact hsame
  · -- opposite numbers are equally near to zero alone, and zero is nearest to that
    rcases abs_eq_abs.1 hdist with hsame | hmirrored
    · exact sub_left_inj.1 hsame
    · obtain rfl : x = 0 := by linarith
      have hzero := h'.nearest 0 wholeCents_zero
      rw [sub_zero, sub_zero, abs_zero, abs_nonpos_iff] at hzero
      rw [hzero, neg_zero]

theorem abs_div_hundred_sub (n : ℤ) (x : ℚ) : |(n : ℚ) / 100 - x| = |n - x * 100| / 100 := by
  have hsub : (n : ℚ) / 100 - x = (n - x * 100) / 100 := by ring
  rw [hsub, abs_div, abs_of_pos (by norm_num : (0 : ℚ) < 100)]

theorem roundsHalfUp_inCents (x : ℚ) : RoundsHalfUp x (inCents x / 100) where
  whole := ⟨_, rfl⟩
  nearest := by
    rintro _ ⟨n, rfl⟩
    rw [abs_div_hundred_sub, abs_div_hundred_sub, div_le_div_iff_of_pos_right (by norm_num)]
    exact abs_inCents_sub_le x n
  ties_away := by
    rintro _ ⟨n, rfl⟩ htie
    rw [abs_div_hundred_sub, abs_div_hundred_sub, div_left_inj' (by norm_num)] at htie
    rw [abs_div, abs_div, div_le_div_iff_of_pos_right (by norm_num)]
    exact_mod_cast abs_le_abs_inCents htie

theorem roundsHalfUp_iff : RoundsHalfUp x r ↔ r = inCents x / 100 :=
  ⟨fun h => h.unique (roundsHalfUp_inCents x), fun h => h ▸ roundsHalfUp_inCents x⟩

/-- The result is below the limit if it has at most 28 digits. -/
theorem RoundsHalfUp.abs_lt_iff (h : RoundsHalfUp x r) :
    |r| < 10 ^ 26 ↔ |inCents x| < 10 ^ 28 := by
  rw [h.whole.abs_lt_iff, roundsHalfUp_iff.1 h, inCents_intCast_div]

end Result

/-! ## Decimals -/

namespace Amount

variable {a : Amount} {d : Decimal}

theorem value_of_round (h : Amount.round d = .ok a) : a.value = inCents d.value / 100 := by
  rw [value, signedCents_of_round h]

/-- The sign takes no part in rounding. -/
theorem round_neg (h : Amount.round d = .ok a) : Amount.round d.neg = .ok a.opposite := by
  have hneg : ofDecimal? d.neg = (ofDecimal? d).map opposite := by
    have hzero : d.neg.isZero = d.isZero := rfl
    have hdigits : d.neg.digits = d.digits := rfl
    have hscaled : d.neg.scaled .awayFromZero 2 = d.scaled .awayFromZero 2 := rfl
    have hexponent : d.neg.exponent = d.exponent := rfl
    simp only [ofDecimal?, hzero, hdigits, hscaled, hexponent]
    split
    · rfl
    · split <;> rfl
  unfold Amount.round at h ⊢
  rw [hneg]
  split at h
  next ha =>
    obtain rfl := Except.ok.inj h
    rw [ha]
    rfl
  next => cases h

end Amount

namespace Numeral

variable {d e q : Decimal} {r : ℚ}

theorem toCents_eq_ok_iff :
    toCents (.finite d) = .ok (.finite q) ↔ ∃ a, Amount.round d = .ok a ∧ a.toDecimal = q := by
  cases h : Amount.round d <;> simp [toCents, h]

theorem toCents_of_lt (h : RoundsHalfUp d.value r) (hlt : |r| < 10 ^ 26) :
    ∃ q, toCents (.finite d) = .ok (.finite q) ∧ q.exponent = -2 ∧ q.value = r := by
  obtain ⟨a, ha⟩ := Amount.exists_round_iff.2 (h.abs_lt_iff.1 hlt)
  refine ⟨a.toDecimal, toCents_eq_ok_iff.2 ⟨a, ha, rfl⟩, rfl, ?_⟩
  rw [Amount.value_toDecimal, Amount.value_of_round ha, roundsHalfUp_iff.1 h]

theorem toCents_of_le (h : RoundsHalfUp d.value r) (hle : 10 ^ 26 ≤ |r|) :
    toCents (.finite d) = .error (.invalid "amount" d.text) := by
  have hnone : ¬ ∃ a, Amount.round d = .ok a := by
    rw [Amount.exists_round_iff, ← h.abs_lt_iff, not_lt]
    exact hle
  cases hround : Amount.round d with
  | ok a => exact absurd ⟨a, hround⟩ hnone
  | error e =>
      rw [toCents, hround, Amount.round_eq_error hround]
      rfl

theorem value_of_toCents (h : toCents (.finite d) = .ok (.finite q)) :
    q.value = inCents d.value / 100 := by
  obtain ⟨a, ha, rfl⟩ := toCents_eq_ok_iff.1 h
  rw [Amount.value_toDecimal, Amount.value_of_round ha]

theorem toCents_idem (h : toCents (.finite d) = .ok (.finite q)) :
    toCents (.finite q) = .ok (.finite q) := by
  obtain ⟨a, -, rfl⟩ := toCents_eq_ok_iff.1 h
  exact toCents_eq_ok_iff.2 ⟨a, a.round_toDecimal, rfl⟩

theorem toCents_neg (h : toCents (.finite d) = .ok (.finite q)) :
    toCents (.finite d.neg) = .ok (.finite q.neg) := by
  obtain ⟨a, ha, rfl⟩ := toCents_eq_ok_iff.1 h
  exact toCents_eq_ok_iff.2 ⟨a.opposite, Amount.round_neg ha, rfl⟩

/-- Rounding depends on the value alone, and so opposite values have opposite results. -/
theorem toCents_of_value_eq_neg (h : toCents (.finite d) = .ok (.finite q))
    (hvalue : e.value = -d.value) :
    ∃ p, toCents (.finite e) = .ok (.finite p) ∧ p.value = -q.value := by
  obtain ⟨a, ha, rfl⟩ := toCents_eq_ok_iff.1 h
  have hcents : inCents e.value = -inCents d.value := by
    rw [hvalue, inCents_neg]
  obtain ⟨b, hb⟩ : ∃ b, Amount.round e = .ok b := by
    rw [Amount.exists_round_iff, hcents, abs_neg, ← Amount.exists_round_iff]
    exact ⟨a, ha⟩
  refine ⟨b.toDecimal, toCents_eq_ok_iff.2 ⟨b, hb, rfl⟩, ?_⟩
  rw [Amount.value_toDecimal, Amount.value_toDecimal, Amount.value_of_round hb,
    Amount.value_of_round ha, hcents, Int.cast_neg, neg_div]

theorem toCents_mono {p : Decimal} (hd : toCents (.finite d) = .ok (.finite q))
    (he : toCents (.finite e) = .ok (.finite p)) (h : d.value ≤ e.value) : q.value ≤ p.value := by
  rw [value_of_toCents hd, value_of_toCents he, div_le_div_iff_of_pos_right (by norm_num),
    Int.cast_le]
  exact inCents_mono h

/-- Rounding a decimal to cents rounds its value half up, exactly: the result has two places and
this value, unless it is `10 ^ 26` or more without its sign and the decimal is refused. So rounding
again changes nothing, order is kept, and opposite numbers have opposite results, down to the sign
of zero. -/
theorem toCents_half_up :
    (∀ d : Decimal, ∃! r, RoundsHalfUp d.value r) ∧
    (∀ (d : Decimal) (r : ℚ), RoundsHalfUp d.value r →
      (|r| < 10 ^ 26 →
        ∃ q, toCents (.finite d) = .ok (.finite q) ∧ q.exponent = -2 ∧ q.value = r) ∧
      (10 ^ 26 ≤ |r| → toCents (.finite d) = .error (.invalid "amount" d.text))) ∧
    ∀ d q : Decimal, toCents (.finite d) = .ok (.finite q) →
      toCents (.finite q) = .ok (.finite q) ∧
      (∀ e p : Decimal, toCents (.finite e) = .ok (.finite p) → d.value ≤ e.value →
        q.value ≤ p.value) ∧
      toCents (.finite d.neg) = .ok (.finite q.neg) ∧
      ∀ e : Decimal, e.value = -d.value →
        ∃ p, toCents (.finite e) = .ok (.finite p) ∧ p.value = -q.value := by
  refine ⟨fun d => ?_, fun d r h => ⟨toCents_of_lt h, toCents_of_le h⟩, fun d q h => ?_⟩
  · exact ⟨_, roundsHalfUp_inCents d.value, fun r hr => roundsHalfUp_iff.1 hr⟩
  · exact ⟨toCents_idem h, fun e p he hle => toCents_mono h he hle, toCents_neg h,
      fun e hvalue => toCents_of_value_eq_neg h hvalue⟩

/-- A half cent goes away from zero, even if this takes a digit too many. -/
theorem toCents_half_up_of_half :
    RoundsHalfUp (Decimal.value ⟨true, 125, -3⟩) (-13 / 100) ∧
      (∃ q, toCents (.finite ⟨true, 125, -3⟩) = .ok (.finite q) ∧ q.exponent = -2 ∧
        q.value = -13 / 100) ∧
      RoundsHalfUp (Decimal.value ⟨false, 99999999999999999999999999995, -3⟩) (10 ^ 26) ∧
      toCents (.finite ⟨false, 99999999999999999999999999995, -3⟩) =
        .error (.invalid "amount" "99999999999999999999999999.995") := by
  have hshort : RoundsHalfUp (Decimal.value ⟨true, 125, -3⟩) (-13 / 100) := by
    have hvalue : Decimal.value ⟨true, 125, -3⟩ = -(1 / 8) := by
      norm_num [Decimal.value, Decimal.size]
    have hcents : roundHalfUp (1 / 8 * 100) = 13 := by
      rw [roundHalfUp_eq_iff]
      norm_num
    rw [roundsHalfUp_iff, hvalue, inCents_neg, inCents_of_nonneg (by norm_num), hcents]
    norm_num
  have hlong : RoundsHalfUp (Decimal.value ⟨false, 99999999999999999999999999995, -3⟩)
      (10 ^ 26) := by
    have hvalue : Decimal.value ⟨false, 99999999999999999999999999995, -3⟩ =
        10 ^ 26 - 5 / 1000 := by
      norm_num [Decimal.value, Decimal.size]
    have hcents : roundHalfUp ((10 ^ 26 - 5 / 1000) * 100) = 10 ^ 28 := by
      rw [roundHalfUp_eq_iff]
      norm_num
    rw [roundsHalfUp_iff, hvalue, inCents_of_nonneg (by norm_num), hcents]
    norm_num
  obtain ⟨-, hround, -⟩ := toCents_half_up
  have hrefused := (hround _ _ hlong).2 (by norm_num)
  have htext : Decimal.text ⟨false, 99999999999999999999999999995, -3⟩ =
      "99999999999999999999999999.995" := by decide +kernel
  rw [htext] at hrefused
  exact ⟨hshort, (hround _ _ hshort).1 (by norm_num), hlong, hrefused⟩

end Numeral

end Billing
