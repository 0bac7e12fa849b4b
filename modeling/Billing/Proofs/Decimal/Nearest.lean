import Mathlib.Data.Int.Log
import Billing.Proofs.Decimal.Overflow

set_option autoImplicit false

/-! # What rounding comes to

The size of a rounded result depends on the exact number alone: it is the nearest multiple of the
unit in the last of 28 places (`Decimal.nearest`). This holds of products and quotients
(`Decimal.size_of_mul`, `Decimal.size_of_div`). What is nearest to a number is at most half a unit
away from it, and on the same side of every multiple of the unit; so rounding keeps the order of
numbers (`Decimal.nearest_mono`).
-/

namespace Billing

/-! ## The place of the leading digit -/

section Log

variable {x : ℚ} {k : ℤ}

theorem zpow_log_le (h : 0 < x) : (10 : ℚ) ^ Int.log 10 x ≤ x := by
  exact_mod_cast Int.zpow_log_le_self (b := 10) (by decide) h

theorem lt_zpow_succ_log (x : ℚ) : x < (10 : ℚ) ^ (Int.log 10 x + 1) := by
  exact_mod_cast Int.lt_zpow_succ_log_self (b := 10) (by decide) x

theorem le_log_iff (h : 0 < x) : k ≤ Int.log 10 x ↔ (10 : ℚ) ^ k ≤ x := by
  rw [← Int.zpow_le_iff_le_log (b := 10) (by decide) h, Nat.cast_ofNat]

/-- A number between two neighbouring powers of ten has its leading digit there. -/
theorem log_eq_of_between (lower : (10 : ℚ) ^ k ≤ x) (upper : x < (10 : ℚ) ^ (k + 1)) :
    Int.log 10 x = k := by
  have hpos : 0 < x := (ten_zpow_pos k).trans_le lower
  have hle : k < Int.log 10 x + 1 := by
    rw [← zpow_lt_zpow_iff_right₀ (a := (10 : ℚ)) (by norm_num)]
    exact lower.trans_lt (lt_zpow_succ_log x)
  have hge : Int.log 10 x < k + 1 := by
    rw [← zpow_lt_zpow_iff_right₀ (a := (10 : ℚ)) (by norm_num)]
    exact (zpow_log_le hpos).trans_lt upper
  omega

theorem log_mul_zpow (h : 0 < x) (k : ℤ) : Int.log 10 (x * 10 ^ k) = Int.log 10 x + k := by
  refine log_eq_of_between ?_ ?_
  · rw [ten_zpow_add]
    exact mul_le_mul_of_nonneg_right (zpow_log_le h) (ten_zpow_pos k).le
  · rw [add_right_comm, ten_zpow_add]
    exact mul_lt_mul_of_pos_right (lt_zpow_succ_log x) (ten_zpow_pos k)

end Log

namespace Decimal

variable {negative : Bool} {num den : Nat} {ideal : Int} {a b d : Decimal} {x y : ℚ} {k m : ℤ}

theorem leadingExponent_eq_log (hnum : 0 < num) (hden : 0 < den) :
    leadingExponent num den = Int.log 10 ((num : ℚ) / den) := by
  obtain ⟨hlower, hupper⟩ := leadingExponent_spec hnum hden
  exact (log_eq_of_between hlower hupper).symm

/-! ## The nearest decimal -/

/-- The exponent of the last place that a number is rounded to. -/
def lastPlace (x : ℚ) : ℤ := max (Int.log 10 x - (precision - 1)) tinyExponent

/-- What a number is rounded to: the nearest multiple of the unit in the last place. -/
def nearest (x : ℚ) : ℚ := roundEven (x / 10 ^ lastPlace x) * 10 ^ lastPlace x

theorem nearest_zero : nearest 0 = 0 := by
  have hzero : roundEven 0 = 0 := by exact_mod_cast roundEven_intCast 0
  rw [nearest, zero_div, hzero, Int.cast_zero, zero_mul]

/-- Zeros that are dropped go into the exponent. -/
theorem dropZeros_value (n c : Nat) : (dropZeros n c).1 * tenTo (dropZeros n c).2 = c := by
  induction n generalizing c with
  | zero => simp [dropZeros, tenTo_zero]
  | succ n ih =>
      rw [dropZeros]
      split
      next hzero =>
        dsimp only
        rw [tenTo_succ, ← Nat.mul_assoc, ih]
        omega
      next => simp [tenTo_zero]

/-- The size of a rounded number is what is nearest to it. -/
theorem size_of_round (hden : 0 < den) (h : round negative num den ideal = .ok d) :
    d.size = nearest ((num : ℚ) / den * 10 ^ ideal) := by
  rcases Nat.eq_zero_or_pos num with rfl | hnum
  · obtain rfl := Except.ok.inj (round_zero negative den ideal ▸ h)
    rw [Nat.cast_zero, zero_div, zero_mul, nearest_zero, size_of_coefficient_eq_zero rfl]
  obtain ⟨x, hx⟩ : ∃ x, x = (num : ℚ) / den * 10 ^ ideal := ⟨_, rfl⟩
  have hpos : (0 : ℚ) < num / den := by positivity
  have hlead : leadingExponent num den + ideal = Int.log 10 x := by
    rw [hx, log_mul_zpow hpos, leadingExponent_eq_log hnum hden]
  rw [round, if_neg hnum.ne'] at h
  extract_lets lead e c rounded exact trimmed result at h
  have he : e = lastPlace x := by
    simp only [e, lead, hlead, lastPlace]
  have hc : (c : ℤ) = roundEven (x / 10 ^ lastPlace x) := by
    rw [← he, hx, mul_div_assoc, ← zpow_sub₀ (by norm_num)]
    exact scaleRound_toEven num hden (ideal - e)
  -- a power of ten that is one digit too long goes over to the next place
  have hrounded : (rounded.1 : ℚ) * 10 ^ rounded.2 = c * 10 ^ e := by
    by_cases htop : c = tenTo precision
    · simp only [rounded, if_pos htop]
      rw [htop, cast_tenTo, cast_tenTo, ← ten_zpow_add, ← ten_zpow_add]
      congr 1
      simp only [precision]
      omega
    · simp only [rounded, if_neg htop]
  have hresult : result.size = (rounded.1 : ℚ) * 10 ^ rounded.2 := by
    have hvalue := dropZeros_value (if exact then (ideal - rounded.2).toNat else 0) rounded.1
    rw [size, ← hvalue, Nat.cast_mul, cast_tenTo, mul_assoc, ← ten_zpow_add, add_comm]
  split at h
  next => cases h
  next =>
    obtain rfl := Except.ok.inj h
    rw [hresult, hrounded, ← hx, nearest, ← hc, he, Int.cast_natCast]

theorem size_of_mul (h : a.mul b = .ok d) : d.size = nearest (a.size * b.size) := by
  rw [size_of_round Nat.one_pos h, value_mul]

theorem size_of_div (h : a.div b = .ok d) : d.size = nearest (a.size / b.size) := by
  rw [div] at h
  split at h
  next => cases h
  next hzero =>
    rw [size_of_round (coefficient_pos (eq_false_of_ne_true hzero)) h, value_div]

/-! ## How near it is -/

theorem abs_nearest_sub_le (x : ℚ) : |nearest x - x| ≤ 10 ^ lastPlace x / 2 := by
  have hunit := ten_zpow_pos (lastPlace x)
  calc |nearest x - x|
      = |(roundEven (x / 10 ^ lastPlace x) : ℚ) * 10 ^ lastPlace x -
          x / 10 ^ lastPlace x * 10 ^ lastPlace x| := by
        rw [div_mul_cancel₀ x hunit.ne', nearest]
    _ = |(roundEven (x / 10 ^ lastPlace x) : ℚ) - x / 10 ^ lastPlace x| * 10 ^ lastPlace x := by
        rw [← sub_mul, abs_mul, abs_of_pos hunit]
    _ ≤ 1 / 2 * 10 ^ lastPlace x :=
        mul_le_mul_of_nonneg_right (abs_roundEven_sub_le _) hunit.le
    _ = 10 ^ lastPlace x / 2 := by ring

/-- Far enough from the smallest numbers there are always 28 digits. -/
theorem lastPlace_of_normal (h : (10 : ℚ) ^ minExponent ≤ x) :
    lastPlace x = Int.log 10 x - (precision - 1) := by
  have hlog := (le_log_iff ((ten_zpow_pos _).trans_le h)).2 h
  rw [lastPlace, max_eq_left]
  rw [tinyExponent]
  omega

theorem lastPlace_le (h : (10 : ℚ) ^ minExponent ≤ x) (hlt : x < 10 ^ k) :
    lastPlace x ≤ k - precision := by
  have hlog : ¬ k ≤ Int.log 10 x :=
    fun hle => hlt.not_ge ((le_log_iff ((ten_zpow_pos _).trans_le h)).1 hle)
  rw [lastPlace_of_normal h]
  omega

/-- The relative error is at most half a unit in the last of 28 digits. -/
theorem abs_nearest_sub_le_mul (h : (10 : ℚ) ^ minExponent ≤ x) :
    |nearest x - x| ≤ x * 10 ^ (1 - precision : ℤ) / 2 := by
  have hpos := (ten_zpow_pos _).trans_le h
  calc |nearest x - x|
      ≤ 10 ^ lastPlace x / 2 := abs_nearest_sub_le x
    _ = 10 ^ Int.log 10 x * 10 ^ (1 - precision : ℤ) / 2 := by
        rw [lastPlace_of_normal h, sub_eq_add_neg, neg_sub, ten_zpow_add]
    _ ≤ x * 10 ^ (1 - precision : ℤ) / 2 := by
        have hle := mul_le_mul_of_nonneg_right (zpow_log_le hpos)
          (ten_zpow_pos (1 - precision : ℤ)).le
        linarith

/-- A multiple of the unit is reached from half a unit below it on, if it is an even one. -/
theorem mul_le_nearest_iff (heven : Even m) :
    (m : ℚ) * 10 ^ lastPlace x ≤ nearest x ↔ (m - 1 / 2) * 10 ^ lastPlace x ≤ x := by
  have hunit := ten_zpow_pos (lastPlace x)
  rw [nearest, mul_le_mul_iff_left₀ hunit, Int.cast_le, le_roundEven_iff, ← le_div_iff₀ hunit,
    le_iff_lt_or_eq]
  simp only [heven, true_and]

/-- A multiple of the unit is not passed. -/
theorem mul_le_nearest (h : (m : ℚ) * 10 ^ lastPlace x ≤ x) :
    (m : ℚ) * 10 ^ lastPlace x ≤ nearest x := by
  have hunit := ten_zpow_pos (lastPlace x)
  rw [nearest, mul_le_mul_iff_left₀ hunit, Int.cast_le, ← roundEven_intCast m]
  exact roundEven_mono ((le_div_iff₀ hunit).2 h)

theorem nearest_le_mul (h : x ≤ m * 10 ^ lastPlace x) : nearest x ≤ m * 10 ^ lastPlace x := by
  have hunit := ten_zpow_pos (lastPlace x)
  rw [nearest, mul_le_mul_iff_left₀ hunit, Int.cast_le, ← roundEven_intCast m]
  exact roundEven_mono ((div_le_iff₀ hunit).2 h)

theorem nearest_nonneg (h : 0 ≤ x) : 0 ≤ nearest x := by
  have hzero := mul_le_nearest (x := x) (m := 0) (by simpa using h)
  simpa using hzero

/-- Powers of ten are multiples of lower ones. -/
theorem exists_zpow_eq_mul {i : ℤ} (h : i ≤ k) : ∃ m : ℤ, (10 : ℚ) ^ k = m * 10 ^ i := by
  obtain ⟨n, hn⟩ := Int.eq_ofNat_of_zero_le (Int.sub_nonneg_of_le h)
  refine ⟨10 ^ n, ?_⟩
  push_cast
  rw [← zpow_natCast, ← ten_zpow_add]
  congr 1
  omega

/-- Rounding does not go below a power of ten. -/
theorem zpow_le_nearest (hk : tinyExponent ≤ k) (h : (10 : ℚ) ^ k ≤ x) :
    (10 : ℚ) ^ k ≤ nearest x := by
  have hpos := (ten_zpow_pos k).trans_le h
  have hlog := (le_log_iff hpos).2 h
  -- the power of ten at the leading digit is a multiple of the unit in the last place
  have hplace : lastPlace x ≤ Int.log 10 x := by
    simp only [lastPlace, precision]
    omega
  obtain ⟨m, hm⟩ := exists_zpow_eq_mul hplace
  calc (10 : ℚ) ^ k ≤ 10 ^ Int.log 10 x := ten_zpow_le_iff.2 hlog
    _ = m * 10 ^ lastPlace x := hm
    _ ≤ nearest x := mul_le_nearest (hm ▸ zpow_log_le hpos)

/-- Rounding does not go above a power of ten. -/
theorem nearest_le_zpow (hk : tinyExponent ≤ k) (hx : 0 ≤ x) (h : x ≤ 10 ^ k) :
    nearest x ≤ 10 ^ k := by
  rcases hx.eq_or_lt with rfl | hpos
  · rw [nearest_zero]
    exact (ten_zpow_pos k).le
  · have hlog : Int.log 10 x ≤ k := ten_zpow_le_iff.1 ((zpow_log_le hpos).trans h)
    have hplace : lastPlace x ≤ k := by
      simp only [lastPlace, precision]
      omega
    obtain ⟨m, hm⟩ := exists_zpow_eq_mul hplace
    rw [hm] at h ⊢
    exact nearest_le_mul h

/-- Rounding keeps the order. -/
theorem nearest_mono (hx : 0 ≤ x) (h : x ≤ y) : nearest x ≤ nearest y := by
  rcases hx.eq_or_lt with rfl | hpos
  · rw [nearest_zero]
    exact nearest_nonneg h
  by_cases hplace : lastPlace x = lastPlace y
  · -- both are rounded to multiples of the same unit
    have hunit := ten_zpow_pos (lastPlace y)
    rw [nearest, nearest, hplace, mul_le_mul_iff_left₀ hunit, Int.cast_le]
    exact roundEven_mono ((div_le_div_iff_of_pos_right hunit).2 h)
  · -- the power of ten at the leading digit of the greater one lies between them
    have hlog : Int.log 10 x ≤ Int.log 10 y := Int.log_mono_right hpos h
    have hle : Int.log 10 x + 1 ≤ Int.log 10 y ∧ tinyExponent ≤ Int.log 10 y := by
      simp only [lastPlace, precision] at hplace
      omega
    calc nearest x ≤ 10 ^ Int.log 10 y := by
          refine nearest_le_zpow hle.2 hx ?_
          exact (lt_zpow_succ_log x).le.trans (ten_zpow_le_iff.2 hle.1)
      _ ≤ nearest y := zpow_le_nearest hle.2 (zpow_log_le (hpos.trans_le h))

/-- A multiple of the unit in the last place is not changed. -/
theorem nearest_eq_self_of_mul (h : x = m * 10 ^ lastPlace x) : nearest x = x := by
  have hunits : x / 10 ^ lastPlace x = m := by
    rw [div_eq_iff (ten_zpow_pos _).ne', ← h]
  rw [nearest, hunits, roundEven_intCast, ← h]

theorem lastPlace_le_of_lt (hpos : 0 < x) (hlt : x < 10 ^ k)
    (hk : tinyExponent ≤ k - precision) : lastPlace x ≤ k - precision := by
  have hlog : ¬ k ≤ Int.log 10 x := fun hle => hlt.not_ge ((le_log_iff hpos).1 hle)
  rw [lastPlace]
  omega

/-- Up to 28 digits nothing is rounded, but for numbers that are too small. -/
theorem nearest_eq_self {n : ℕ} (hn : n < tenTo precision) (hk : tinyExponent ≤ k) :
    nearest (n * 10 ^ k) = n * 10 ^ k := by
  rcases Nat.eq_zero_or_pos n with rfl | hpos
  · rw [Nat.cast_zero, zero_mul, nearest_zero]
  · have hplace : lastPlace (n * 10 ^ k) ≤ k := by
      have hlt : (n : ℚ) * 10 ^ k < 10 ^ (precision + k : ℤ) := by
        rw [ten_zpow_add, ← cast_tenTo]
        exact mul_lt_mul_of_pos_right (Nat.cast_lt.2 hn) (ten_zpow_pos k)
      have hle := lastPlace_le_of_lt (mul_pos (Nat.cast_pos.2 hpos) (ten_zpow_pos k)) hlt (by omega)
      omega
    obtain ⟨m, hm⟩ := exists_zpow_eq_mul hplace
    refine nearest_eq_self_of_mul (m := n * m) ?_
    rw [Int.cast_mul, Int.cast_natCast, mul_assoc, ← hm]

/-- Far enough from the smallest numbers, rounding goes with powers of ten. -/
theorem nearest_mul_zpow (h : (10 : ℚ) ^ minExponent ≤ x)
    (h' : (10 : ℚ) ^ minExponent ≤ x * 10 ^ k) : nearest (x * 10 ^ k) = nearest x * 10 ^ k := by
  have hplace : lastPlace (x * 10 ^ k) = lastPlace x + k := by
    rw [lastPlace_of_normal h, lastPlace_of_normal h', log_mul_zpow ((ten_zpow_pos _).trans_le h)]
    ring
  have hscale : x * 10 ^ k / 10 ^ (lastPlace x + k) = x / 10 ^ lastPlace x := by
    rw [ten_zpow_add, mul_div_mul_right _ _ (ten_zpow_pos k).ne']
  rw [nearest, hplace, hscale, nearest, ten_zpow_add, mul_assoc]

end Decimal

end Billing
