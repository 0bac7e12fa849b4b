import Billing.Proofs.Decimal.Rounding

set_option autoImplicit false

/-! # Rounding to whole numbers

The whole number nearest to a rational number, with the two ways for a half to go: up
(`roundHalfUp`) or to the even neighbour (`roundEven`). What is computed with whole numbers alone,
of a quotient and a power of ten, is the same (`scaleRound_toEven`, `scaleRound_awayFromZero`).
-/

namespace Billing

/-! ## Powers of ten -/

theorem cast_tenTo (n : Nat) : ((tenTo n : Nat) : ℚ) = (10 : ℚ) ^ (n : Int) := by
  rw [tenTo_eq_pow, zpow_natCast]
  push_cast
  rfl

theorem ten_zpow_pos (n : Int) : 0 < (10 : ℚ) ^ n := zpow_pos (by norm_num) n

theorem ten_zpow_le_iff {m n : Int} : (10 : ℚ) ^ m ≤ 10 ^ n ↔ m ≤ n :=
  zpow_le_zpow_iff_right₀ (by norm_num)

theorem ten_zpow_add (m n : Int) : (10 : ℚ) ^ (m + n) = 10 ^ m * 10 ^ n :=
  zpow_add₀ (by norm_num) m n

/-! ## The nearest whole number -/

/-- The whole number nearest to a number, a half going up. -/
def roundHalfUp (x : ℚ) : ℤ := ⌊x + 1 / 2⌋

/-- The whole number nearest to a number, a half going to the even one. -/
def roundEven (x : ℚ) : ℤ := if Even ⌊x⌋ then ⌈x - 1 / 2⌉ else ⌊x + 1 / 2⌋

section Whole

variable {x y : ℚ} {m : ℤ}

theorem roundHalfUp_eq_iff : roundHalfUp x = m ↔ (m : ℚ) - 1 / 2 ≤ x ∧ x < m + 1 / 2 := by
  rw [roundHalfUp, Int.floor_eq_iff]
  constructor <;> rintro ⟨hlower, hupper⟩ <;> constructor <;> linarith

theorem abs_roundHalfUp_sub_le (x : ℚ) : |(roundHalfUp x : ℚ) - x| ≤ 1 / 2 := by
  obtain ⟨hlower, hupper⟩ := roundHalfUp_eq_iff.1 (Eq.refl (roundHalfUp x))
  rw [abs_le]
  constructor <;> linarith

/-- A number is reached from a half below it on. -/
theorem le_roundHalfUp_iff : m ≤ roundHalfUp x ↔ (m : ℚ) - 1 / 2 ≤ x := by
  rw [roundHalfUp, Int.le_floor]
  constructor <;> intro h <;> linarith

theorem roundHalfUp_lt_iff : roundHalfUp x < m ↔ x < (m : ℚ) - 1 / 2 := by
  rw [← not_le, le_roundHalfUp_iff, not_le]

theorem roundHalfUp_mono (h : x ≤ y) : roundHalfUp x ≤ roundHalfUp y :=
  Int.floor_le_floor (by linarith)

theorem roundHalfUp_nonneg (h : 0 ≤ x) : 0 ≤ roundHalfUp x := by
  rw [le_roundHalfUp_iff, Int.cast_zero]
  linarith

theorem roundHalfUp_intCast (m : ℤ) : roundHalfUp m = m := by
  rw [roundHalfUp_eq_iff]
  constructor <;> linarith

/-- No other whole number is nearer. -/
theorem abs_roundHalfUp_sub_le_abs (x : ℚ) (m : ℤ) : |(roundHalfUp x : ℚ) - x| ≤ |m - x| := by
  rw [abs_sub_comm, abs_sub_comm (m : ℚ), roundHalfUp, ← round_eq]
  exact round_le x m

/-- Of two whole numbers that are equally near, the other one is smaller. -/
theorem abs_le_roundHalfUp (h : 0 ≤ x) (htie : |(m : ℚ) - x| = |(roundHalfUp x : ℚ) - x|) :
    |m| ≤ roundHalfUp x := by
  obtain ⟨-, hupper⟩ := roundHalfUp_eq_iff.1 (Eq.refl (roundHalfUp x))
  rcases abs_eq_abs.1 htie with hsame | hmirrored
  · have heq : m = roundHalfUp x := by exact_mod_cast sub_left_inj.1 hsame
    rw [heq, abs_of_nonneg (roundHalfUp_nonneg h)]
  · -- mirrored at the number, it would be farther away if it were greater
    have hlt : (m : ℚ) < roundHalfUp x + 1 := by linarith
    have hle : -(roundHalfUp x : ℚ) ≤ m := by linarith
    rw [abs_le]
    exact ⟨by exact_mod_cast hle, Int.lt_add_one_iff.1 (by exact_mod_cast hlt)⟩

/-- A number is reached from a half below it on; from the half itself only if it is even. -/
theorem le_roundEven_iff :
    m ≤ roundEven x ↔ (m : ℚ) - 1 / 2 < x ∨ (Even m ∧ (m : ℚ) - 1 / 2 = x) := by
  -- at the half, the whole part is the number before
  have hfloor : (m : ℚ) - 1 / 2 = x → (Even ⌊x⌋ ↔ ¬ Even m) := by
    rintro rfl
    have hbefore : ⌊(m : ℚ) - 1 / 2⌋ = m - 1 := by
      rw [Int.floor_eq_iff]
      push_cast
      constructor <;> linarith
    rw [hbefore, Int.even_sub_one]
  unfold roundEven
  split
  next heven =>
    have hlt : m ≤ ⌈x - 1 / 2⌉ ↔ (m : ℚ) - 1 / 2 < x := by
      rw [Int.le_ceil_iff]
      constructor <;> intro h <;> linarith
    rw [hlt, or_iff_left]
    exact fun h => (hfloor h.2).1 heven h.1
  next hodd =>
    have hle : m ≤ ⌊x + 1 / 2⌋ ↔ (m : ℚ) - 1 / 2 ≤ x := by
      rw [Int.le_floor]
      constructor <;> intro h <;> linarith
    rw [hle, le_iff_lt_or_eq]
    refine or_congr_right ⟨fun h => ⟨?_, h⟩, fun h => h.2⟩
    by_contra hm
    exact hodd ((hfloor h).2 hm)

theorem roundEven_mono (h : x ≤ y) : roundEven x ≤ roundEven y := by
  rcases le_roundEven_iff.1 (le_refl (roundEven x)) with hlt | ⟨heven, heq⟩
  · exact le_roundEven_iff.2 (.inl (hlt.trans_le h))
  · rcases h.lt_or_eq with hlt | rfl
    · exact le_roundEven_iff.2 (.inl (heq.trans_lt hlt))
    · exact le_rfl

theorem abs_roundEven_sub_le (x : ℚ) : |(roundEven x : ℚ) - x| ≤ 1 / 2 := by
  have hlower : (roundEven x : ℚ) - 1 / 2 ≤ x := by
    rcases le_roundEven_iff.1 (le_refl (roundEven x)) with hlt | ⟨-, heq⟩
    · exact hlt.le
    · exact heq.le
  have hupper : x ≤ ((roundEven x + 1 : ℤ) : ℚ) - 1 / 2 := by
    by_contra hlt
    have hle := le_roundEven_iff.2 (.inl (not_le.1 hlt))
    omega
  push_cast at hupper
  rw [abs_le]
  constructor <;> linarith

/-- What is nearer than a half is what is rounded to. -/
theorem roundEven_eq_of_abs_lt (h : |x - m| < 1 / 2) : roundEven x = m := by
  rw [abs_lt] at h
  refine le_antisymm (Int.lt_add_one_iff.1 (not_le.1 fun hle => ?_))
    (le_roundEven_iff.2 (.inl (by linarith)))
  rcases le_roundEven_iff.1 hle with hlt | ⟨-, heq⟩
  · push_cast at hlt
    linarith
  · push_cast at heq
    linarith

theorem roundEven_intCast (m : ℤ) : roundEven m = m :=
  roundEven_eq_of_abs_lt (by norm_num)

/-- Between two whole numbers, a half goes to the even one. -/
theorem roundEven_add_half (m : ℤ) : roundEven (m + 1 / 2) = if Even m then m else m + 1 := by
  have hfloor : ⌊(m : ℚ) + 1 / 2⌋ = m := by
    rw [Int.floor_eq_iff]
    constructor <;> linarith
  rw [roundEven, hfloor]
  split
  next => rw [add_sub_cancel_right, Int.ceil_intCast]
  next =>
    have hone : (m : ℚ) + 1 / 2 + 1 / 2 = ((m + 1 : ℤ) : ℚ) := by
      push_cast
      ring
    rw [hone, Int.floor_intCast]

end Whole

/-! ## Rounding of quotients -/

section Quotient

variable {num den : Nat}

/-- A quotient is its whole part and a rest, which lies below, above or at a half. -/
theorem cast_div_cases (num : Nat) (hden : 0 < den) :
    ∃ rest : ℚ, (num : ℚ) / den = ((num / den : Nat) : ℤ) + rest ∧ 0 ≤ rest ∧ rest < 1 ∧
      (2 * (num % den) < den ↔ rest < 1 / 2) ∧ (den < 2 * (num % den) ↔ 1 / 2 < rest) := by
  have hden' : (0 : ℚ) < den := by exact_mod_cast hden
  have hsplit : (num : ℚ) = den * (num / den : Nat) + (num % den : Nat) := by
    exact_mod_cast (Nat.div_add_mod num den).symm
  refine ⟨(num % den : Nat) / den, ?_, by positivity, ?_, ?_, ?_⟩
  · rw [Int.cast_natCast, eq_comm, eq_div_iff hden'.ne', add_mul, div_mul_cancel₀ _ hden'.ne',
      mul_comm, ← hsplit]
  · rw [div_lt_one hden']
    exact_mod_cast Nat.mod_lt num hden
  · rw [div_lt_div_iff₀ hden' two_pos, one_mul, mul_comm]
    exact_mod_cast Iff.rfl
  · rw [div_lt_div_iff₀ two_pos hden', one_mul, mul_comm _ (2 : ℚ)]
    exact_mod_cast Iff.rfl

theorem divRound_toEven (num : Nat) (hden : 0 < den) :
    (divRound .toEven num den : ℤ) = roundEven ((num : ℚ) / den) := by
  obtain ⟨rest, hrest, hnonneg, hlt, hbelow, habove⟩ := cast_div_cases num hden
  rw [hrest]
  simp only [divRound, hbelow, habove]
  rcases lt_trichotomy rest (1 / 2) with hlow | rfl | hhigh
  · rw [if_pos hlow, eq_comm]
    refine roundEven_eq_of_abs_lt ?_
    rw [add_sub_cancel_left, abs_of_nonneg hnonneg]
    exact hlow
  · rw [if_neg (lt_irrefl _), if_neg (lt_irrefl _), roundEven_add_half]
    simp only [← Nat.even_iff, Int.even_coe_nat]
    split <;> simp
  · rw [if_neg hhigh.not_gt, if_pos hhigh, eq_comm]
    refine roundEven_eq_of_abs_lt ?_
    rw [abs_lt]
    push_cast
    constructor <;> linarith

theorem divRound_awayFromZero (num : Nat) (hden : 0 < den) :
    (divRound .awayFromZero num den : ℤ) = roundHalfUp ((num : ℚ) / den) := by
  obtain ⟨rest, hrest, hnonneg, hlt, hbelow, habove⟩ := cast_div_cases num hden
  rw [hrest]
  simp only [divRound, hbelow, habove]
  rw [eq_comm, roundHalfUp_eq_iff]
  rcases lt_trichotomy rest (1 / 2) with hlow | rfl | hhigh
  · rw [if_pos hlow]
    constructor <;> linarith
  · rw [if_neg (lt_irrefl _), if_neg (lt_irrefl _)]
    push_cast
    constructor <;> linarith
  · rw [if_neg hhigh.not_gt, if_pos hhigh]
    push_cast
    constructor <;> linarith

/-- What is rounded, as a quotient of whole numbers. -/
theorem exists_scaleRound_eq (tie : Tie) (num : Nat) (hden : 0 < den) (shift : Int) :
    ∃ n d, 0 < d ∧ scaleRound tie num den shift = divRound tie n d ∧
      (n : ℚ) / d = (num : ℚ) / den * (10 : ℚ) ^ shift := by
  cases shift with
  | ofNat k =>
      refine ⟨num * tenTo k, den, hden, rfl, ?_⟩
      rw [Nat.cast_mul, cast_tenTo, Int.ofNat_eq_natCast]
      ring
  | negSucc k =>
      refine ⟨num, den * tenTo (k + 1), Nat.mul_pos hden (tenTo_pos _), ?_, ?_⟩
      · by_cases hshort : Digits.count num ≤ k
        · -- a quotient below a tenth is rounded to zero
          have hnum : num < tenTo k := by
            calc num < tenTo (Digits.count num) := Digits.lt_tenTo_count num
              _ ≤ tenTo k := tenTo_le_tenTo_iff.2 hshort
          have hten : tenTo k * 10 ≤ den * tenTo (k + 1) := by
            rw [tenTo_succ]
            exact Nat.le_mul_of_pos_left _ hden
          have hlt : num < den * tenTo (k + 1) := by omega
          have hhalf : 2 * num < den * tenTo (k + 1) := by omega
          rw [scaleRound, if_pos hshort]
          simp only [divRound, Nat.div_eq_of_lt hlt, Nat.mod_eq_of_lt hlt, if_pos hhalf]
        · rw [scaleRound, if_neg hshort]
      · rw [Nat.cast_mul, cast_tenTo, zpow_negSucc, ← zpow_natCast]
        field_simp

theorem scaleRound_toEven (num : Nat) (hden : 0 < den) (shift : Int) :
    (scaleRound .toEven num den shift : ℤ) = roundEven ((num : ℚ) / den * 10 ^ shift) := by
  obtain ⟨n, d, hd, hround, hvalue⟩ := exists_scaleRound_eq .toEven num hden shift
  rw [hround, divRound_toEven n hd, hvalue]

theorem scaleRound_awayFromZero (num : Nat) (hden : 0 < den) (shift : Int) :
    (scaleRound .awayFromZero num den shift : ℤ) = roundHalfUp ((num : ℚ) / den * 10 ^ shift) := by
  obtain ⟨n, d, hd, hround, hvalue⟩ := exists_scaleRound_eq .awayFromZero num hden shift
  rw [hround, divRound_awayFromZero n hd, hvalue]

end Quotient

end Billing
