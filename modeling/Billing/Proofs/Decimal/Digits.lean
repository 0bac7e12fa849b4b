import Mathlib.Tactic
import Billing.Decimal.Digits
import Billing.Decimal.Power

set_option autoImplicit false

/-! # How many digits a number has

A number other than zero lies between two neighbouring powers of ten (`tenTo_le_of_pos` and
`lt_tenTo_count`), and the exponents of these powers are its number of digits.
-/

namespace Billing

theorem tenTo_eq_pow (n : Nat) : tenTo n = 10 ^ n := rfl

theorem tenTo_add (m n : Nat) : tenTo (m + n) = tenTo m * tenTo n := by
  simp only [tenTo_eq_pow, pow_add]

theorem tenTo_le_tenTo_iff {m n : Nat} : tenTo m ≤ tenTo n ↔ m ≤ n := by
  simp only [tenTo_eq_pow]
  exact Nat.pow_le_pow_iff_right (by decide)

theorem tenTo_lt_tenTo_iff {m n : Nat} : tenTo m < tenTo n ↔ m < n := by
  simp only [tenTo_eq_pow]
  exact Nat.pow_lt_pow_iff_right (by decide)

namespace Digits

theorem count_of_lt_ten {n : Nat} (h : n < 10) : count n = 1 := by
  rw [count, if_pos h]

theorem count_pos (n : Nat) : 0 < count n := by
  rw [count]
  split <;> omega

theorem lt_tenTo_count (n : Nat) : n < tenTo (count n) := by
  fun_induction count n with
  | case1 n h => exact h
  | case2 n h ih =>
      rw [tenTo_succ]
      omega

theorem tenTo_le_of_pos {n : Nat} (h : 0 < n) : tenTo (count n - 1) ≤ n := by
  fun_induction count n with
  | case1 n hn => exact h
  | case2 n hn ih =>
      -- the last digit goes, and one power of ten with it
      have hpos := count_pos (n / 10)
      have ih := ih (by omega)
      rw [show count (n / 10) + 1 - 1 = count (n / 10) - 1 + 1 by omega, tenTo_succ]
      omega

/-- A number has at most `k` digits exactly when it is below `10 ^ k`. -/
theorem count_le_iff {n k : Nat} (hk : 0 < k) : count n ≤ k ↔ n < tenTo k := by
  constructor
  · intro h
    calc n < tenTo (count n) := lt_tenTo_count n
      _ ≤ tenTo k := tenTo_le_tenTo_iff.2 h
  · intro h
    rcases Nat.eq_zero_or_pos n with rfl | hn
    · rw [count_of_lt_ten (by decide)]
      exact hk
    · have := tenTo_lt_tenTo_iff.1 ((tenTo_le_of_pos hn).trans_lt h)
      omega

theorem lt_count_iff {n k : Nat} (hk : 0 < k) : k < count n ↔ tenTo k ≤ n := by
  rw [← not_le, count_le_iff hk, not_lt]

/-- Between two neighbouring powers of ten the number of digits is the same. -/
theorem count_eq_of_between {n k : Nat} (lower : tenTo k ≤ n) (upper : n < tenTo (k + 1)) :
    count n = k + 1 := by
  have hle := (count_le_iff (Nat.succ_pos k)).2 upper
  rcases Nat.eq_zero_or_pos k with rfl | hk
  · have := count_pos n
    omega
  · have := (lt_count_iff hk).2 lower
    omega

theorem count_tenTo (k : Nat) : count (tenTo k) = k + 1 :=
  count_eq_of_between le_rfl (tenTo_lt_tenTo_iff.2 k.lt_succ_self)

end Digits

end Billing
