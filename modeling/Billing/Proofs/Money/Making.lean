import Billing.Proofs.Money.Product

set_option autoImplicit false

/-! # Money made from given amounts

Money is made of a number if it has at most two places. Whether it has is looked up in its normal
form, which is rounded to 28 digits (`Decimal.normalize_eq_ok`), so places that these digits do not
show go unnoticed, and the amount is rounded to cents (`Overlooked`). `Money.of_keeps_amount` says
that every other number of cents is kept as it is given, and every other number is refused.
-/

namespace Billing

/-! ## The normal form -/

namespace Decimal

variable {d r : Decimal}

/-- Zeros are dropped until another digit is the last one, or until enough are dropped. -/
theorem dropZeros_last (n c : Nat) : (dropZeros n c).2 = n ∨ (dropZeros n c).1 % 10 ≠ 0 := by
  induction n generalizing c with
  | zero => exact .inl rfl
  | succ n ih =>
      rw [dropZeros]
      split
      next hzero =>
        rcases ih (c / 10) with hall | hlast
        · exact .inl (congrArg (· + 1) hall)
        · exact .inr hlast
      next hlast => exact .inr hlast

/-- The normal form is what is nearest to a number; behind the point it does not end in a zero. -/
theorem normalize_eq_ok (h : d.normalize = .ok r) :
    r.size = nearest d.size ∧ (r.exponent < 0 → r.coefficient % 10 ≠ 0) := by
  obtain ⟨s, hround, h⟩ := Except.bind_eq_ok_iff.1 h
  have hsize : s.size = nearest d.size := by
    rw [size_of_round Nat.one_pos hround, Nat.cast_one, div_one, ← size]
  rw [← hsize]
  split at h
  next hzero =>
    obtain rfl := Except.ok.inj h
    refine ⟨?_, fun hneg => absurd hneg (lt_irrefl 0)⟩
    rw [size_eq_zero_iff.2 hzero, size_eq_zero_iff]
    rfl
  next hne =>
    have hpos : 0 < s.coefficient := coefficient_pos (eq_false_of_ne_true hne)
    obtain ⟨n, hn⟩ : ∃ n, n = min s.digits (maxExponent - s.exponent).toNat := ⟨_, rfl⟩
    rw [← hn] at h
    obtain rfl := Except.ok.inj h
    constructor
    · have hvalue := dropZeros_value n s.coefficient
      rw [size, size, ← hvalue, Nat.cast_mul, cast_tenTo, mul_assoc, ← ten_zpow_add, hvalue,
        add_comm]
    · intro hneg
      rcases dropZeros_last n s.coefficient with hall | hlast
      · -- this many zeros would be all digits, or they bring the exponent up to the largest one
        have hcount := count_dropZeros hpos n
        have hleft := Digits.count_pos (dropZeros n s.coefficient).1
        have hmax : maxExponent = 999999 := rfl
        dsimp only at hneg
        rw [digits] at hn
        omega
      · exact hlast

/-- Such a number is a whole number of cents exactly if it has at most two places. -/
theorem wholeCents_size_iff (hlast : r.exponent < 0 → r.coefficient % 10 ≠ 0) :
    WholeCents r.size ↔ -2 ≤ r.exponent := by
  constructor
  · rintro ⟨n, hn⟩
    by_contra hlow
    obtain ⟨k, hk⟩ : ∃ k : ℕ, r.exponent = -3 - k := ⟨(-3 - r.exponent).toNat, by omega⟩
    -- with a place behind the cents, the last digit would be a zero
    have hcoefficient : (r.coefficient : ℤ) = n * 10 ^ k * 10 := by
      have hcast : (r.coefficient : ℚ) = n * 10 ^ k * 10 := by
        calc (r.coefficient : ℚ) = r.size * 10 ^ (3 + k : ℤ) := by
              rw [size, mul_assoc, ← ten_zpow_add, hk]
              simp
          _ = n * 10 ^ k * 10 := by
              rw [hn, ten_zpow_add, zpow_natCast]
              norm_num
              ring
      exact_mod_cast hcast
    exact hlast (by omega) (by omega)
  · intro hexponent
    obtain ⟨k, hk⟩ := Int.eq_ofNat_of_zero_le (show 0 ≤ r.exponent + 2 by omega)
    have hsplit : r.exponent = k + -2 := by omega
    refine ⟨r.coefficient * 10 ^ k, ?_⟩
    rw [size, hsplit, ten_zpow_add, zpow_natCast]
    push_cast
    norm_num
    ring

end Decimal

/-! ## What is accepted -/

open Decimal

/-- A number that is no whole number of cents, but turns into one when it is rounded to 28 digits,
and small enough for an amount. -/
def Overlooked (x : ℚ) : Prop :=
  ¬ WholeCents x ∧ WholeCents (nearest |x|) ∧ |inCents x| < 10 ^ 28

section Overlooked

variable {x : ℚ}

/-- A whole number of cents below `10 ^ 26` units is not changed by 28 digits. -/
theorem nearest_of_wholeCents (h : WholeCents x) (hlt : |inCents x| < 10 ^ 28) :
    nearest |x| = |x| := by
  obtain ⟨n, hn⟩ := wholeCents_abs.2 h
  have hcents : |inCents x| = n := by
    rw [abs_inCents, hn, div_mul_cancel₀ _ (by norm_num), roundHalfUp_intCast]
  have hnonneg : 0 ≤ n := hcents ▸ abs_nonneg (inCents x)
  obtain ⟨k, rfl⟩ := Int.eq_ofNat_of_zero_le hnonneg
  have hk : k < tenTo precision := by
    rw [hcents, ← Amount.tenTo_precision] at hlt
    exact_mod_cast hlt
  have hunits : |x| = (k : ℚ) * 10 ^ (-2 : ℤ) := by
    rw [hn, Int.cast_natCast]
    norm_num
    ring
  rw [hunits, nearest_eq_self hk (by decide)]

/-- Numbers of up to 28 digits are looked at as they are, unless they are next to nothing. -/
theorem not_overlooked_of_fewDigits (few : FewDigits x) (hlarge : (10 : ℚ) ^ minExponent ≤ |x|) :
    ¬ Overlooked x := by
  rintro ⟨hcents, hnearest, -⟩
  obtain ⟨c, k, hc, hx⟩ := few.abs.exists_natCast (abs_nonneg x)
  have hk : tinyExponent ≤ k := by
    have hlt : (10 : ℚ) ^ minExponent < 10 ^ (precision + k : ℤ) :=
      (hx ▸ hlarge).trans_lt (natCast_mul_lt hc k)
    have hexponent := (zpow_lt_zpow_iff_right₀ (by norm_num : (1 : ℚ) < 10)).1 hlt
    rw [tinyExponent]
    omega
  rw [hx, nearest_eq_self hc hk, ← hx, wholeCents_abs] at hnearest
  exact hcents hnearest

/-- Rounding to cents then moves a number by half a unit in the last of 28 places at most. -/
theorem Overlooked.abs_sub_le (h : Overlooked x) :
    |(inCents x : ℚ) / 100 - x| ≤ 10 ^ lastPlace |x| / 2 := by
  obtain ⟨-, ⟨n, hn⟩, -⟩ := h
  have hsize : |(inCents x : ℚ) - x * 100| ≤ |(n : ℚ) - |x| * 100| := by
    rcases le_total 0 x with hx | hx
    · rw [abs_of_nonneg hx]
      exact abs_inCents_sub_le x n
    · have hneg := abs_inCents_sub_le x (-n)
      rwa [Int.cast_neg, ← neg_add', abs_neg, ← sub_neg_eq_add, ← neg_mul, ← abs_of_nonpos hx]
        at hneg
  have hscale : ∀ y z : ℚ, |y / 100 - z| = |y - z * 100| / 100 := by
    intro y z
    calc |y / 100 - z| = |(y - z * 100) / 100| := by
          congr 1
          ring
      _ = |y - z * 100| / 100 := by rw [abs_div, abs_of_pos (by norm_num : (0 : ℚ) < 100)]
  calc |(inCents x : ℚ) / 100 - x|
      = |(inCents x : ℚ) - x * 100| / 100 := hscale _ _
    _ ≤ |(n : ℚ) - |x| * 100| / 100 := div_le_div_of_nonneg_right hsize (by norm_num)
    _ = |(nearest |x| - |x|)| := by rw [← hscale, hn]
    _ ≤ 10 ^ lastPlace |x| / 2 := abs_nearest_sub_le |x|

end Overlooked

namespace Money

variable {amount currency : Given} {d r : Decimal} {c : Currency} {m : Money} {e : Failure}

section Given

variable (hd : amount.toDecimal "amount" = .ok d) (hc : Currency.ofGiven currency = .ok c)

include hd

/-- From the limit of rounding on, there is no normal form. -/
theorem of_overflow (h : overflowLimit ≤ d.size) :
    Money.of amount currency = .error (.arithmetic .overflow) := by
  have hnormalize : d.normalize = .error .overflow := normalize_eq_error_iff.2 ⟨rfl, h⟩
  simp only [Money.of, hd, Except.ok_bind, hnormalize, ofSignal, Except.error_bind]

include hc

/-- After the normal form has been looked at, the number is rounded to cents. -/
theorem of_normalize (hr : d.normalize = .ok r) :
    Money.of amount currency =
      if r.exponent < -2 then
        .error (.invalid "amount" ("too many decimal places: " ++ amount.shown))
      else (Amount.round d).map fun a => ⟨a, c⟩ := by
  simp only [Money.of, hd, hc, Except.ok_bind, hr, ofSignal]
  split
  · rfl
  · cases Amount.round d <;> rfl

/-- What is accepted, and what it becomes. -/
theorem of_eq_ok_iff :
    Money.of amount currency = .ok m ↔
      WholeCents (nearest d.size) ∧ Amount.round d = .ok m.amount ∧ m.currency = c := by
  cases hr : d.normalize with
  | error signal =>
      obtain ⟨rfl, hlimit⟩ := normalize_eq_error_iff.1 hr
      rw [of_overflow hd hlimit]
      refine iff_of_false nofun fun h => ?_
      -- what is rounded to an amount is far below the limit
      have hsmall := abs_lt_of_inCents (Amount.exists_round_iff.1 ⟨_, h.2.1⟩)
      rw [abs_value] at hsmall
      have hlarge := units_le_overflowLimit.trans hlimit
      exact hsmall.not_ge (by exact_mod_cast hlarge)
  | ok r =>
      obtain ⟨hsize, hlast⟩ := normalize_eq_ok hr
      rw [of_normalize hd hc hr, ← hsize, wholeCents_size_iff hlast]
      split
      next hplaces => exact iff_of_false nofun fun h => hplaces.not_ge h.1
      next hplaces =>
        rw [and_iff_right (not_lt.1 hplaces), Except.map_eq_ok_iff]
        constructor
        · rintro ⟨a, ha, rfl⟩
          exact ⟨ha, rfl⟩
        · rintro ⟨ha, rfl⟩
          exact ⟨m.amount, ha, rfl⟩

/-- What is not accepted is refused with a code up to the limit of rounding. -/
theorem of_eq_error (h : Money.of amount currency = .error e) (hlimit : d.size < overflowLimit) :
    ∃ shown, e = .invalid "amount" shown := by
  cases hr : d.normalize with
  | error signal => exact absurd (normalize_eq_error_iff.1 hr).2 hlimit.not_ge
  | ok r =>
      rw [of_normalize hd hc hr] at h
      split at h
      next => exact ⟨_, (Except.error.inj h).symm⟩
      next =>
        cases hround : Amount.round d with
        | error e' =>
            rw [hround] at h
            obtain rfl := Except.error.inj h
            exact ⟨_, Amount.round_eq_error hround⟩
        | ok a =>
            rw [hround] at h
            cases h

/-- Money keeps the amount it is given. A whole number of cents below `10 ^ 26` units is accepted as
it stands; anything else is refused with a code, but for two exceptions. From the limit of rounding
on the failure is one of arithmetic. And what is overlooked becomes a whole number of cents: it is
moved by half a unit in the last of 28 digits at most, and it has more digits than that or is next
to nothing. -/
theorem of_keeps_amount :
    (WholeCents d.value ∧ |d.value| < 10 ^ 26 →
      ∃ m, Money.of amount currency = .ok m ∧ m.currency = c ∧ m.value = d.value) ∧
    (¬ (WholeCents d.value ∧ |d.value| < 10 ^ 26) →
      ((∃ shown, Money.of amount currency = .error (.invalid "amount" shown)) ↔
        ¬ Overlooked d.value ∧ |d.value| < overflowLimit)) ∧
    (overflowLimit ≤ |d.value| → Money.of amount currency = .error (.arithmetic .overflow)) ∧
    (Overlooked d.value →
      (∃ m, Money.of amount currency = .ok m ∧ m.currency = c ∧ m.value ≠ d.value ∧
        |m.value - d.value| ≤ 10 ^ lastPlace |d.value| / 2) ∧
      ¬ (FewDigits d.value ∧ 10 ^ minExponent ≤ |d.value|)) := by
  have haccepted : WholeCents (nearest d.size) → |inCents d.value| < 10 ^ 28 →
      ∃ m, Money.of amount currency = .ok m ∧ m.currency = c ∧
        m.value = inCents d.value / 100 := by
    intro hcents hfits
    obtain ⟨a, ha⟩ := Amount.exists_round_iff.2 hfits
    refine ⟨⟨a, c⟩, (of_eq_ok_iff hd hc).2 ⟨hcents, ha, rfl⟩, rfl, ?_⟩
    rw [value, Amount.value, Amount.signedCents_of_round ha]
  have hoverlooked : Overlooked d.value → ∃ m, Money.of amount currency = .ok m ∧
      m.currency = c ∧ m.value = inCents d.value / 100 := by
    rintro ⟨-, hcents, hfits⟩
    exact haccepted (abs_value d ▸ hcents) hfits
  refine ⟨?_, fun hother => ⟨?_, ?_⟩, ?_, fun h => ⟨?_, ?_⟩⟩
  · rintro ⟨hcents, hlt⟩
    have hfits := hcents.abs_lt_iff.1 hlt
    have hnearest : WholeCents (nearest d.size) := by
      rw [← abs_value, nearest_of_wholeCents hcents hfits]
      exact wholeCents_abs.2 hcents
    obtain ⟨m, hm, hcurrency, hvalue⟩ := haccepted hnearest hfits
    exact ⟨m, hm, hcurrency, hvalue.trans hcents.inCents_div⟩
  · rintro ⟨shown, hrefused⟩
    constructor
    · intro h
      obtain ⟨m, hm, -⟩ := hoverlooked h
      rw [hm] at hrefused
      cases hrefused
    · by_contra hlimit
      rw [abs_value, not_lt] at hlimit
      rw [of_overflow hd hlimit] at hrefused
      cases hrefused
  · rintro ⟨hnot, hlimit⟩
    rw [abs_value] at hlimit
    cases hof : Money.of amount currency with
    | error e =>
        obtain ⟨shown, rfl⟩ := of_eq_error hd hc hof hlimit
        exact ⟨shown, rfl⟩
    | ok m =>
        -- an accepted number is a whole number of cents, or it is overlooked
        obtain ⟨hnearest, hround, -⟩ := (of_eq_ok_iff hd hc).1 hof
        have hfits := Amount.exists_round_iff.1 ⟨_, hround⟩
        by_cases hcents : WholeCents d.value
        · exact absurd ⟨hcents, abs_lt_of_inCents hfits⟩ hother
        · exact absurd ⟨hcents, abs_value d ▸ hnearest, hfits⟩ hnot
  · intro hlimit
    exact of_overflow hd (abs_value d ▸ hlimit)
  · obtain ⟨m, hm, hcurrency, hvalue⟩ := hoverlooked h
    refine ⟨m, hm, hcurrency, fun heq => ?_, ?_⟩
    · exact h.1 ⟨_, heq.symm.trans hvalue⟩
    · rw [hvalue]
      exact h.abs_sub_le
  · rintro ⟨few, hlarge⟩
    exact not_overlooked_of_fewDigits few hlarge h

end Given

/-- The largest amount, with a zero behind its places, is kept. -/
theorem of_keeps_amount_sample :
    (Given.text "99999999999999999999999999.990").toDecimal "amount" =
        .ok ⟨false, 99999999999999999999999999990, -3⟩ ∧
      Currency.ofGiven (.text "EUR") = .ok .eur ∧
      ∃ m, Money.of (.text "99999999999999999999999999.990") (.text "EUR") = .ok m ∧
        m.currency = .eur ∧ m.value = 9999999999999999999999999999 / 100 := by
  have hd : (Given.text "99999999999999999999999999.990").toDecimal "amount" =
      .ok ⟨false, 99999999999999999999999999990, -3⟩ := by decide +kernel
  have hc : Currency.ofGiven (.text "EUR") = .ok .eur := by decide +kernel
  have hvalue : Decimal.value ⟨false, 99999999999999999999999999990, -3⟩ =
      9999999999999999999999999999 / 100 := by
    norm_num [Decimal.value, size]
  obtain ⟨m, hm, hcurrency, hkept⟩ := (of_keeps_amount hd hc).1 (by
    rw [hvalue]
    exact ⟨⟨9999999999999999999999999999, by norm_num⟩, by norm_num [abs_of_pos]⟩)
  exact ⟨hd, hc, m, hm, hcurrency, hkept.trans hvalue⟩

/-- A half cent behind 26 digits is overlooked, and the amount becomes a cent instead. Of an amount
beyond the limit of rounding no money is made, but it is not refused with a code either. -/
theorem half_cent_overlooked :
    (Given.text "10000000000000000000000000.005").toDecimal "amount" =
        .ok ⟨false, 10000000000000000000000000005, -3⟩ ∧
      ¬ WholeCents (Decimal.value ⟨false, 10000000000000000000000000005, -3⟩) ∧
      (Money.of (.text "10000000000000000000000000.005") (.text "USD")).map
        (·.amount.signedCents) = .ok 1000000000000000000000000001 ∧
      Money.of (.text "1E1000000") (.text "USD") = .error (.arithmetic .overflow) := by
  refine ⟨by decide +kernel, ?_, by decide +kernel, by decide +kernel⟩
  rintro ⟨n, hn⟩
  have hcents : 10000000000000000000000000005 = n * 10 := by
    have hcast : (10000000000000000000000000005 : ℚ) = n * 10 := by
      norm_num [Decimal.value, size] at hn
      linarith
    exact_mod_cast hcast
  omega

end Money

end Billing
