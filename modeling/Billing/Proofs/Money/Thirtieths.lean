import Billing.Proofs.Decimal.Nearest

set_option autoImplicit false

/-! # Prices for some days of thirty

The price for a number of days is computed in three steps: the factor `days / 30` is rounded to 28
digits, the product with the price as well, and the result to cents. The errors of the first two are
small (`abs_nearest_product_sub_le`), and up to `10 ^ 25` cents the last step repairs them, because
no multiple of a thirtieth that is not a half is near to one. A half itself can be lost
(`HalfCentLost`), and this is the only exception (`roundHalfUp_thirtieths`).
-/

namespace Billing

open Decimal

variable {cents days n : ℕ} {x z : ℚ}

/-! ## The factor -/

/-- Counted in units of its last place, a factor of days is a number of thirds. -/
theorem exists_thirds (hplace : lastPlace ((days : ℚ) / 30) ≤ -1) :
    ∃ n : ℕ, n % 3 = days % 3 ∧
      (days : ℚ) / 30 = n / 3 * 10 ^ lastPlace ((days : ℚ) / 30) := by
  obtain ⟨k, hk⟩ := Int.eq_ofNat_of_zero_le (Int.sub_nonneg_of_le hplace)
  have hplace' : lastPlace ((days : ℚ) / 30) = -1 - k := by omega
  refine ⟨days * 10 ^ k, ?_, ?_⟩
  · rw [Nat.mul_mod, Nat.pow_mod]
    simp
  · have hpow : (10 : ℚ) ^ k ≠ 0 := by positivity
    rw [hplace', zpow_sub₀ (by norm_num), zpow_natCast]
    push_cast
    field_simp
    ring

/-- No number of thirds is a half, so a third below goes down and a third above goes up. -/
theorem roundEven_third (n : ℕ) : roundEven ((n : ℚ) / 3) = ((n + 1) / 3 : ℕ) := by
  have hsplit : (n : ℚ) + 1 = 3 * ((n + 1) / 3 : ℕ) + ((n + 1) % 3 : ℕ) := by
    exact_mod_cast (Nat.div_add_mod (n + 1) 3).symm
  have hrest : (((n + 1) % 3 : ℕ) : ℚ) ≤ 2 := by
    exact_mod_cast Nat.le_of_lt_succ (Nat.mod_lt (n + 1) (by decide))
  have hnonneg : (0 : ℚ) ≤ ((n + 1) % 3 : ℕ) := Nat.cast_nonneg _
  refine roundEven_eq_of_abs_lt ?_
  rw [abs_lt, Int.cast_natCast]
  constructor <;> linarith

theorem nearest_thirds (h : x = n / 3 * 10 ^ lastPlace x) :
    nearest x = ((n + 1) / 3 : ℕ) * 10 ^ lastPlace x := by
  have hunits : x / 10 ^ lastPlace x = n / 3 := by
    rw [div_eq_iff (ten_zpow_pos _).ne', ← h]
  rw [nearest, hunits, roundEven_third, Int.cast_natCast]

/-- One day over makes the factor a third of a unit too small. -/
theorem nearest_of_mod_eq_one (hplace : lastPlace ((days : ℚ) / 30) ≤ -1) (h : days % 3 = 1) :
    nearest ((days : ℚ) / 30) = days / 30 - 10 ^ lastPlace ((days : ℚ) / 30) / 3 := by
  obtain ⟨n, hn, hthirds⟩ := exists_thirds hplace
  have hdown : (n : ℚ) = 3 * ((n + 1) / 3 : ℕ) + 1 := by
    exact_mod_cast (show n = 3 * ((n + 1) / 3) + 1 by omega)
  rw [nearest_thirds hthirds]
  linear_combination -hthirds - 10 ^ lastPlace ((days : ℚ) / 30) / 3 * hdown

/-- Otherwise the factor is not too small. -/
theorem le_nearest_of_mod_ne_one (hplace : lastPlace ((days : ℚ) / 30) ≤ -1) (h : days % 3 ≠ 1) :
    (days : ℚ) / 30 ≤ nearest ((days : ℚ) / 30) := by
  obtain ⟨n, hn, hthirds⟩ := exists_thirds hplace
  have hup : (n : ℚ) ≤ 3 * ((n + 1) / 3 : ℕ) := by
    exact_mod_cast (show n ≤ 3 * ((n + 1) / 3) by omega)
  calc (days : ℚ) / 30
      = n / 3 * 10 ^ lastPlace ((days : ℚ) / 30) := hthirds
    _ ≤ ((n + 1) / 3 : ℕ) * 10 ^ lastPlace ((days : ℚ) / 30) :=
        mul_le_mul_of_nonneg_right (by linarith) (ten_zpow_pos _).le
    _ = nearest ((days : ℚ) / 30) := (nearest_thirds hthirds).symm

/-! ## Halves among the thirtieths -/

/-- A number of thirtieths that is not a half is at least one of them away from it. -/
theorem roundHalfUp_of_near (hn : n % 30 ≠ 15) (h : |z - n / 30| < 1 / 30) :
    roundHalfUp z = roundHalfUp (n / 30) := by
  obtain ⟨m, hm⟩ : ∃ m, roundHalfUp ((n : ℚ) / 30) = m := ⟨_, rfl⟩
  obtain ⟨hlower, hupper⟩ := roundHalfUp_eq_iff.1 hm
  have hlower' : 30 * m - 14 ≤ n := by
    have hle : 30 * m - 15 ≤ (n : ℤ) := by
      have hle : (30 : ℚ) * m - 15 ≤ n := by linarith
      exact_mod_cast hle
    omega
  have hupper' : (n : ℤ) ≤ 30 * m + 14 := by
    have hlt : (n : ℤ) < 30 * m + 15 := by
      have hlt : (n : ℚ) < 30 * m + 15 := by linarith
      exact_mod_cast hlt
    omega
  have hlower : (30 : ℚ) * m - 14 ≤ n := by exact_mod_cast hlower'
  have hupper : (n : ℚ) ≤ 30 * m + 14 := by exact_mod_cast hupper'
  rw [abs_lt] at h
  rw [hm, roundHalfUp_eq_iff]
  constructor <;> linarith

theorem exists_half (hn : n % 30 = 15) : ∃ q : ℕ, (n : ℚ) / 30 = q + 1 / 2 := by
  refine ⟨n / 30, ?_⟩
  have hsplit : (n : ℚ) = 30 * (n / 30 : ℕ) + 15 := by
    exact_mod_cast (show n = 30 * (n / 30) + 15 by omega)
  linarith

/-- Near to a half, the side decides. -/
theorem roundHalfUp_of_near_half (hn : n % 30 = 15) (h : |z - n / 30| < 1 / 30) :
    roundHalfUp z = roundHalfUp (n / 30) - if (n : ℚ) / 30 ≤ z then 0 else 1 := by
  obtain ⟨q, hq⟩ := exists_half hn
  rw [hq] at h ⊢
  have hup : roundHalfUp ((q : ℚ) + 1 / 2) = (q : ℤ) + 1 := by
    rw [roundHalfUp_eq_iff]
    push_cast
    constructor <;> linarith
  rw [abs_lt] at h
  rw [hup, roundHalfUp_eq_iff]
  split <;> push_cast <;> constructor <;> linarith

/-- What is near to a half has its leading digit in the same place. -/
theorem log_of_near_half (hn : n % 30 = 15) (h : |z - n / 30| < 1 / 30) :
    Int.log 10 z = Int.log 10 ((n : ℚ) / 30) := by
  obtain ⟨q, hq⟩ := exists_half hn
  rw [hq] at h ⊢
  rw [abs_lt] at h
  rcases Nat.eq_zero_or_pos q with rfl | hone
  · have htenth : Int.log 10 (((0 : ℕ) : ℚ) + 1 / 2) = -1 :=
      log_eq_of_between (by norm_num) (by norm_num)
    rw [htenth]
    refine log_eq_of_between ?_ ?_ <;> norm_num at h ⊢ <;> linarith
  · -- from one on, the place of the leading digit is that of the whole part
    have hle : (1 : ℚ) ≤ q := by exact_mod_cast hone
    have hfloor : ⌊z⌋₊ = q := by
      rw [Nat.floor_eq_iff (by linarith)]
      constructor <;> linarith
    have hfloor' : ⌊(q : ℚ) + 1 / 2⌋₊ = q := by
      rw [Nat.floor_eq_iff (by linarith)]
      constructor <;> linarith
    rw [Int.log_of_one_le_right 10 (by linarith), Int.log_of_one_le_right 10 (by linarith),
      hfloor, hfloor']

/-- A half is an even number of units, if these are hundredths or finer. -/
theorem exists_even_mul (hn : n % 30 = 15) {k : ℤ} (hk : k ≤ -2) :
    ∃ m : ℤ, Even m ∧ (n : ℚ) / 30 = m * 10 ^ k := by
  obtain ⟨q, hq⟩ := exists_half hn
  obtain ⟨j, hj⟩ := exists_zpow_eq_mul hk
  refine ⟨2 * ((2 * q + 1) * 25 * j), even_two_mul _, ?_⟩
  calc (n : ℚ) / 30 = (2 * q + 1) * 50 * 10 ^ (-2 : ℤ) := by
        rw [hq]
        norm_num
        ring
    _ = (2 * q + 1) * 50 * (j * 10 ^ k) := by rw [hj]
    _ = ((2 * ((2 * q + 1) * 25 * j) : ℤ) : ℚ) * 10 ^ k := by
        push_cast
        ring

/-! ## The price

A price of some cents for some days, in the three steps in which it is computed.
-/

/-- A half cent is lost if the exact price ends in it, the factor is too small, and that makes the
product too small by more than half a unit in its last place. -/
def HalfCentLost (cents days : ℕ) : Prop :=
  cents * days % 30 = 15 ∧ days % 3 = 1 ∧
    (10 : ℚ) ^ lastPlace ((cents * days : ℕ) / 30) / 2 <
      cents * 10 ^ lastPlace ((days : ℚ) / 30) / 3

instance : Decidable (HalfCentLost cents days) :=
  inferInstanceAs (Decidable (_ ∧ _ ∧ _))

theorem normal_of_le (h : (10 : ℚ) ^ (-2 : ℤ) ≤ x) : (10 : ℚ) ^ minExponent ≤ x :=
  (ten_zpow_le_iff.2 (by decide)).trans h

theorem le_thirtieth (h : 0 < n) : (1 : ℚ) / 30 ≤ (n : ℚ) / 30 := by
  have hone : (1 : ℚ) ≤ n := by exact_mod_cast h
  linarith

theorem abs_factor_sub_le (hdays : 0 < days) :
    |nearest ((days : ℚ) / 30) - days / 30| ≤ days / 30 * 10 ^ (-27 : ℤ) / 2 := by
  have hle := le_thirtieth hdays
  refine abs_nearest_sub_le_mul (normal_of_le ?_)
  norm_num
  linarith

theorem hundredth_le_factor (hdays : 0 < days) :
    (10 : ℚ) ^ (-2 : ℤ) ≤ nearest ((days : ℚ) / 30) := by
  have hnear := abs_le.1 (abs_factor_sub_le hdays)
  have hle := le_thirtieth hdays
  norm_num at hnear ⊢
  linarith

theorem hundredth_le_product (hcents : 0 < cents) (hdays : 0 < days) :
    (10 : ℚ) ^ (-2 : ℤ) ≤ cents * nearest ((days : ℚ) / 30) := by
  have hone : (1 : ℚ) ≤ cents := by exact_mod_cast hcents
  have hfactor := hundredth_le_factor hdays
  calc (10 : ℚ) ^ (-2 : ℤ) ≤ nearest ((days : ℚ) / 30) := hfactor
    _ ≤ cents * nearest ((days : ℚ) / 30) :=
        le_mul_of_one_le_left ((ten_zpow_pos _).le.trans hfactor) hone

theorem abs_product_sub_le (hdays : 0 < days) :
    |(cents : ℚ) * nearest ((days : ℚ) / 30) - (cents * days : ℕ) / 30| ≤
      (cents * days : ℕ) / 30 * 10 ^ (-27 : ℤ) / 2 := by
  calc |(cents : ℚ) * nearest ((days : ℚ) / 30) - (cents * days : ℕ) / 30|
      = cents * |nearest ((days : ℚ) / 30) - days / 30| := by
        rw [Nat.cast_mul, mul_div_assoc, ← mul_sub, abs_mul, Nat.abs_cast]
    _ ≤ cents * (days / 30 * 10 ^ (-27 : ℤ) / 2) :=
        mul_le_mul_of_nonneg_left (abs_factor_sub_le hdays) (Nat.cast_nonneg _)
    _ = (cents * days : ℕ) / 30 * 10 ^ (-27 : ℤ) / 2 := by
        push_cast
        ring

/-- The errors of the factor and of the product together are small against the price. -/
theorem abs_nearest_product_sub_le (hcents : 0 < cents) (hdays : 0 < days) :
    |nearest (cents * nearest ((days : ℚ) / 30)) - (cents * days : ℕ) / 30| ≤
      (cents * days : ℕ) / 30 * (2 / 10 ^ 27) := by
  have hproduct := abs_le.1 (@abs_product_sub_le cents days hdays)
  have hround := abs_le.1
    (abs_nearest_sub_le_mul (normal_of_le (hundredth_le_product hcents hdays)))
  have hnonneg : (0 : ℚ) ≤ (cents * days : ℕ) := Nat.cast_nonneg _
  norm_num [precision] at hproduct hround ⊢
  rw [abs_le]
  constructor <;> linarith

/-- The product is so near to the exact price that only a half cent can be missed. -/
theorem abs_product_sub_lt (hdays : 0 < days)
    (hsmall : ((cents * days : ℕ) : ℚ) / 30 < 10 ^ 25) :
    |(cents : ℚ) * nearest ((days : ℚ) / 30) - (cents * days : ℕ) / 30| < 1 / 200 := by
  have hlt := mul_lt_mul_of_pos_right hsmall (ten_zpow_pos (-27))
  calc |(cents : ℚ) * nearest ((days : ℚ) / 30) - (cents * days : ℕ) / 30|
      ≤ (cents * days : ℕ) / 30 * 10 ^ (-27 : ℤ) / 2 := abs_product_sub_le hdays
    _ < 10 ^ 25 * 10 ^ (-27 : ℤ) / 2 := by linarith
    _ = 1 / 200 := by norm_num

section Small

variable (hcents : 0 < cents) (hdays : 0 < days)
  (hsmall : ((cents * days : ℕ) : ℚ) / 30 < 10 ^ 25)

include hcents hdays hsmall

theorem lastPlace_factor_le : lastPlace ((days : ℚ) / 30) ≤ -1 := by
  have hle := le_thirtieth hdays
  have hmul : (days : ℚ) ≤ (cents * days : ℕ) := by
    exact_mod_cast Nat.le_mul_of_pos_left days hcents
  refine lastPlace_le (normal_of_le ?_) (k := 27) ?_
  · norm_num
    linarith
  · norm_num
    linarith

/-- Products are rounded to hundredths of a cent, or finer. -/
theorem lastPlace_product_le : lastPlace (cents * nearest ((days : ℚ) / 30)) ≤ -2 := by
  have hnear := abs_lt.1 (abs_product_sub_lt hdays hsmall)
  refine lastPlace_le (normal_of_le (hundredth_le_product hcents hdays)) (k := 26) ?_
  norm_num
  linarith

theorem abs_nearest_product_sub_lt :
    |nearest (cents * nearest ((days : ℚ) / 30)) - (cents * days : ℕ) / 30| < 1 / 30 := by
  calc |nearest (cents * nearest ((days : ℚ) / 30)) - (cents * days : ℕ) / 30|
      ≤ (cents * days : ℕ) / 30 * (2 / 10 ^ 27) := abs_nearest_product_sub_le hcents hdays
    _ ≤ 10 ^ 25 * (2 / 10 ^ 27) := mul_le_mul_of_nonneg_right hsmall.le (by norm_num)
    _ < 1 / 30 := by norm_num

/-- A half cent that is reached exactly is reached by the product, unless it is lost. -/
theorem half_le_nearest_product_iff (hhalf : cents * days % 30 = 15) :
    ((cents * days : ℕ) : ℚ) / 30 ≤ nearest (cents * nearest ((days : ℚ) / 30)) ↔
      ¬ HalfCentLost cents days := by
  obtain ⟨m, heven, hm⟩ :=
    exists_even_mul hhalf (lastPlace_product_le hcents hdays hsmall)
  have hplace := lastPlace_factor_le hcents hdays hsmall
  by_cases hmod : days % 3 = 1
  · have hproduct : (cents : ℚ) * nearest ((days : ℚ) / 30) =
        (cents * days : ℕ) / 30 - cents * 10 ^ lastPlace ((days : ℚ) / 30) / 3 := by
      rw [nearest_of_mod_eq_one hplace hmod]
      push_cast
      ring
    have hunit : lastPlace (cents * nearest ((days : ℚ) / 30)) =
        lastPlace ((cents * days : ℕ) / 30) := by
      have hnear := (abs_product_sub_lt hdays hsmall).trans (by norm_num : (1 : ℚ) / 200 < 1 / 30)
      rw [lastPlace, lastPlace, log_of_near_half hhalf hnear]
    rw [hm, mul_le_nearest_iff heven, sub_mul, ← hm, hunit, hproduct, sub_le_sub_iff_left,
      one_div_mul_eq_div]
    simp only [HalfCentLost, hhalf, hmod, true_and, not_lt]
  · have hle : ((cents * days : ℕ) : ℚ) / 30 ≤ cents * nearest ((days : ℚ) / 30) := by
      rw [Nat.cast_mul, mul_div_assoc]
      exact mul_le_mul_of_nonneg_left (le_nearest_of_mod_ne_one hplace hmod) (Nat.cast_nonneg _)
    refine iff_of_true ?_ fun h => hmod h.2.1
    rw [hm] at hle ⊢
    exact mul_le_nearest hle

/-- What a price comes to for some days is the exact price, rounded to cents with a half going up,
unless a half cent is lost. -/
theorem roundHalfUp_thirtieths :
    roundHalfUp (nearest (cents * nearest ((days : ℚ) / 30))) =
      roundHalfUp ((cents * days : ℕ) / 30) - if HalfCentLost cents days then 1 else 0 := by
  have hnear := abs_nearest_product_sub_lt hcents hdays hsmall
  by_cases hhalf : cents * days % 30 = 15
  · rw [roundHalfUp_of_near_half hhalf hnear]
    simp only [half_le_nearest_product_iff hcents hdays hsmall hhalf, ite_not]
  · rw [roundHalfUp_of_near hhalf hnear, if_neg fun h => hhalf h.1, sub_zero]

end Small

/-- For one day, half a cent and a cent and a half go up, but five and a half cents go down. -/
example : ¬ HalfCentLost 15 1 ∧ ¬ HalfCentLost 45 1 ∧ HalfCentLost 165 1 := by decide +kernel

end Billing
