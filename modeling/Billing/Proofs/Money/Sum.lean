import Billing.Proofs.Decimal.Rounding
import Billing.Proofs.Money.Comparison

set_option autoImplicit false

/-! # Sums of money are exact

Amounts are whole numbers of cents, so a sum or difference of two of them either is the exact one or
has too many digits and is refused: `Money.add_eq_ok_iff` and `Money.subtract_eq_ok_iff`. Nothing is
ever rounded here, as products are (`Money.scale_eq_ok_iff`).
-/

namespace Billing

theorem ofSignal_eq_ok_iff {α : Type} {r : Except Decimal.Signal α} {a : α} :
    ofSignal r = .ok a ↔ r = .ok a := by
  cases r <;> simp [ofSignal]

namespace Amount

variable {a b c : Amount} {negative : Bool} {n : Nat}

/-- An amount is its sign and its value in cents; the sign counts for zero. -/
theorem ext_signed (hsign : a.negative = b.negative) (hcents : a.signedCents = b.signedCents) :
    a = b := by
  obtain ⟨sa, ca, ha⟩ := a
  obtain ⟨sb, cb, hb⟩ := b
  obtain rfl : sa = sb := hsign
  -- with one sign for both, the cents are the value or its opposite
  have hc : ca = cb := by
    cases sa <;> simp only [signedCents, Bool.false_eq_true, if_true, if_false] at hcents <;> omega
  subst hc
  rfl

theorem natAbs_signedCents (a : Amount) : a.signedCents.natAbs = a.cents := by
  unfold signedCents
  split <;> simp

theorem natAbs_signedCents_lt (a : Amount) : a.signedCents.natAbs < tenTo Decimal.precision := by
  rw [natAbs_signedCents]
  exact a.cents_lt

theorem count_cents_le (a : Amount) : Digits.count a.cents ≤ Decimal.precision :=
  (Digits.count_le_iff (by decide)).2 a.cents_lt

/-- The largest amount there is. -/
def largest : Amount := ⟨false, tenTo Decimal.precision - 1, by decide⟩

/-- Only zero can have the sign that its value does not show. -/
theorem negative_eq_of_ne_zero (h : a.signedCents ≠ 0) :
    a.negative = decide (a.signedCents < 0) := by
  obtain ⟨sign, cents, lt⟩ := a
  cases sign
  · simp [signedCents]
  · simp only [signedCents, if_true] at h ⊢
    simp only [true_eq_decide_iff]
    omega

theorem signedAt_toDecimal (a : Amount) : a.toDecimal.signedAt (-2) = a.signedCents := by
  simp [toDecimal, Decimal.signedAt, Decimal.coefficientAt, signedCents, tenTo_zero]

/-- Rounding to cents keeps the sign. -/
theorem eq_of_round {d : Decimal} (h : Amount.round d = .ok a) :
    a.negative = d.negative ∧ a.cents = d.scaled .awayFromZero 2 := by
  unfold Amount.round at h
  split at h
  next a' ha =>
    obtain rfl := Except.ok.inj h
    unfold ofDecimal? at ha
    split at ha
    next => cases ha
    next =>
      dsimp only at ha
      split at ha
      next =>
        obtain rfl := Option.some.inj ha
        exact ⟨rfl, rfl⟩
      next => cases ha
  next => cases h

/-- A whole number of cents is an amount as it stands if it has few enough digits. -/
theorem round_of_lt (h : n < tenTo Decimal.precision) :
    Amount.round ⟨negative, n, -2⟩ = .ok ⟨negative, n, h⟩ := by
  have hcount := (Digits.count_le_iff (n := n) (k := Decimal.precision) (by decide)).2 h
  have hfits : ¬ Decimal.precision < Digits.count n := not_lt.2 hcount
  have hscaled : Decimal.scaled .awayFromZero 2 ⟨negative, n, -2⟩ = n := by
    by_cases hzero : n = 0
    · simp [Decimal.scaled, Decimal.isZero, hzero]
    · have hshift : scaleRound .awayFromZero n 1 ((0 : Nat) : Int) = n := by
        rw [scaleRound_natCast, divRound_one, tenTo_zero, Nat.mul_one]
      simpa [Decimal.scaled, Decimal.isZero, hzero] using hshift
  simp [Amount.round, ofDecimal?, Decimal.digits, hfits, hscaled, h]

theorem round_toDecimal (a : Amount) : Amount.round a.toDecimal = .ok a :=
  round_of_lt a.cents_lt

/-- A decimal that is too large in whole cents is not an amount. -/
theorem round_of_long {d : Decimal} (nonzero : d.coefficient ≠ 0)
    (long : (Decimal.precision : Int) < d.digits + (d.exponent + 2)) :
    Amount.round d = .error (.invalid "amount" d.text) := by
  simp [Amount.round, ofDecimal?, Decimal.isZero, nonzero, long]

/-- Rounding to the working precision does not change an amount. -/
theorem round_decimal (a : Amount) : Decimal.round a.negative a.cents 1 (-2) = .ok a.toDecimal := by
  rcases Nat.eq_zero_or_pos a.cents with hzero | hpos
  · rw [hzero, Decimal.round_zero, toDecimal, hzero]
    rfl
  · -- two places more than a whole number are far from the largest exponent
    have hcount := a.count_cents_le
    refine Decimal.round_of_count_le hpos hcount (by decide) ?_
    simp only [Decimal.precision, Decimal.maxExponent] at hcount ⊢
    omega

/-- 28 digits and two places are well within what can be read. -/
theorem readable_toDecimal (a : Amount) : a.toDecimal.readable = true := by
  have hcount := a.count_cents_le
  have hadjusted : a.toDecimal.adjusted = -2 + Digits.count a.cents - 1 := rfl
  have hexponent : a.toDecimal.exponent = -2 := rfl
  rw [Decimal.readable, Bool.and_eq_true, decide_eq_true_eq, decide_eq_true_eq, hadjusted,
    hexponent]
  simp only [Decimal.precision, Decimal.maxReadable, Decimal.minReadable] at hcount ⊢
  omega

/-! ## The sum of two amounts -/

/-- The exact sum of two amounts, when it is one: zero is positive unless both amounts carry a
minus sign. -/
def IsSum (a b c : Amount) : Prop :=
  c.signedCents = a.signedCents + b.signedCents ∧
    c.negative = if a.signedCents + b.signedCents = 0 then a.negative && b.negative
      else decide (a.signedCents + b.signedCents < 0)

/-- Two amounts have a sum when it has few enough digits. -/
theorem exists_isSum
    (fits : (a.signedCents + b.signedCents).natAbs < tenTo Decimal.precision) :
    ∃ c, IsSum a b c := by
  -- the sum and its sign get names of their own, so that their definitions stay out of the way
  obtain ⟨sum, hsum⟩ : ∃ sum, sum = a.signedCents + b.signedCents := ⟨_, rfl⟩
  obtain ⟨sign, hsign⟩ : ∃ sign, sign = if sum = 0 then a.negative && b.negative
      else decide (sum < 0) := ⟨_, rfl⟩
  rw [← hsum] at fits
  simp only [IsSum, ← hsum, ← hsign]
  refine ⟨⟨sign, sum.natAbs, fits⟩, ?_, rfl⟩
  by_cases hzero : sum = 0
  · simp [signedCents, hzero]
  · rw [if_neg hzero] at hsign
    simp only [signedCents, hsign, decide_eq_true_eq]
    split <;> omega

/-- The sum of two amounts, computed on decimals and brought back to cents. -/
def plus (a b : Amount) : Except Failure Amount := do
  Amount.round (← ofSignal (a.toDecimal.add b.toDecimal))

theorem add_toDecimal (a b : Amount) :
    a.toDecimal.add b.toDecimal =
      Decimal.round (if a.signedCents + b.signedCents = 0 then a.negative && b.negative
          else decide (a.signedCents + b.signedCents < 0))
        (a.signedCents + b.signedCents).natAbs 1 (-2) := by
  have ha : a.toDecimal.exponent = -2 := rfl
  have hb : b.toDecimal.exponent = -2 := rfl
  simp only [Decimal.add, ha, hb, min_self, signedAt_toDecimal]
  rfl

theorem plus_of_isSum (h : IsSum a b c) : plus a b = .ok c := by
  have hadd : a.toDecimal.add b.toDecimal = .ok c.toDecimal := calc
    a.toDecimal.add b.toDecimal = Decimal.round c.negative c.signedCents.natAbs 1 (-2) := by
      rw [add_toDecimal, ← h.2, ← h.1]
    _ = .ok c.toDecimal := by rw [natAbs_signedCents, round_decimal]
  rw [plus, hadd]
  exact round_toDecimal c

/-- A sum with more digits than an amount can have is refused, not rounded. -/
theorem natAbs_lt_of_plus (h : plus a b = .ok c) :
    (a.signedCents + b.signedCents).natAbs < tenTo Decimal.precision := by
  by_contra hlong
  have hcount := (Digits.lt_count_iff (n := (a.signedCents + b.signedCents).natAbs)
    (k := Decimal.precision) (by decide)).2 (not_lt.1 hlong)
  obtain ⟨d, hd, hc⟩ := Except.bind_eq_ok_iff.1 h
  rw [add_toDecimal] at hd
  -- a longer sum is cut to the working precision, and then has too many digits in whole cents
  have hround := Decimal.round_of_lt_count hcount (by decide) (ofSignal_eq_ok_iff.1 hd)
  rw [round_of_long] at hc
  · cases hc
  · intro hzero
    have hdigits := hround.1
    rw [Decimal.digits, hzero, Digits.count_of_lt_ten (by decide)] at hdigits
    exact absurd hdigits (by decide)
  · omega

theorem plus_eq_ok_iff : plus a b = .ok c ↔ IsSum a b c := by
  constructor
  · intro h
    obtain ⟨c', hc'⟩ := exists_isSum (natAbs_lt_of_plus h)
    obtain rfl := Except.ok.inj (h.symm.trans (plus_of_isSum hc'))
    exact hc'
  · exact plus_of_isSum

/-- The amount with the other sign. -/
def opposite (a : Amount) : Amount := { a with negative := !a.negative }

@[simp] theorem signedCents_opposite (a : Amount) : a.opposite.signedCents = -a.signedCents := by
  obtain ⟨sign, cents, lt⟩ := a
  cases sign <;> simp [opposite, signedCents]

end Amount

namespace Money

variable {a b c : Money}

/-- The currencies are compared before anything is added. -/
theorem add_eq (a b : Money) : a.add b = do
    requireSame .add a b
    return ⟨← Amount.plus a.amount b.amount, a.currency⟩ := by
  simp only [add, Amount.plus, bind_assoc]

theorem subtract_eq (a b : Money) : a.subtract b = do
    requireSame .subtract a b
    return ⟨← Amount.plus a.amount b.amount.opposite, a.currency⟩ := by
  simp only [subtract, Amount.plus, bind_assoc]
  rfl

theorem add_eq_ok_iff :
    a.add b = .ok c ↔
      a.currency = b.currency ∧ c.currency = a.currency ∧
        Amount.IsSum a.amount b.amount c.amount := by
  rw [add_eq, Except.bind_eq_ok_iff]
  constructor
  · rintro ⟨_, hsame, h⟩
    obtain ⟨sum, hsum, hc⟩ := Except.bind_eq_ok_iff.1 h
    obtain rfl := Except.ok.inj hc
    exact ⟨requireSame_eq_ok_iff.1 hsame, rfl, Amount.plus_eq_ok_iff.1 hsum⟩
  · rintro ⟨hsame, hcurrency, hsum⟩
    refine ⟨(), requireSame_of_eq hsame, ?_⟩
    rw [Amount.plus_eq_ok_iff.2 hsum, ← hcurrency]
    rfl

/-- The sum of two amounts of money, in cents. -/
theorem signedCents_of_add_eq_ok (h : a.add b = .ok c) :
    c.amount.signedCents = a.amount.signedCents + b.amount.signedCents :=
  (add_eq_ok_iff.1 h).2.2.1

theorem subtract_eq_ok_iff :
    a.subtract b = .ok c ↔
      a.currency = b.currency ∧ c.currency = a.currency ∧
        Amount.IsSum a.amount b.amount.opposite c.amount := by
  rw [subtract_eq, Except.bind_eq_ok_iff]
  constructor
  · rintro ⟨_, hsame, h⟩
    obtain ⟨difference, hdifference, hc⟩ := Except.bind_eq_ok_iff.1 h
    obtain rfl := Except.ok.inj hc
    exact ⟨requireSame_eq_ok_iff.1 hsame, rfl, Amount.plus_eq_ok_iff.1 hdifference⟩
  · rintro ⟨hsame, hcurrency, hdifference⟩
    refine ⟨(), requireSame_of_eq hsame, ?_⟩
    rw [Amount.plus_eq_ok_iff.2 hdifference, ← hcurrency]
    rfl

theorem isPositive_iff : a.isPositive = true ↔ 0 < a.amount.signedCents := by
  simp [isPositive, Amount.isPositive]

/-- Money above zero is told apart by its currency and its value. -/
theorem eq_of_positive (hcurrency : a.currency = b.currency)
    (hcents : a.amount.signedCents = b.amount.signedCents) (hpos : 0 < b.amount.signedCents) :
    a = b := by
  have hsign : a.amount.negative = b.amount.negative := by
    rw [Amount.negative_eq_of_ne_zero (hcents ▸ hpos.ne'), Amount.negative_eq_of_ne_zero hpos.ne',
      hcents]
  have hamount : a.amount = b.amount := Amount.ext_signed hsign hcents
  cases a
  cases b
  simp_all

/-- Money less itself is nothing, without a minus sign. -/
theorem subtract_self (a : Money) : a.subtract a = .ok (zero a.currency) := by
  refine subtract_eq_ok_iff.2 ⟨rfl, rfl, ?_, ?_⟩
  · rw [Amount.signedCents_opposite]
    exact (Int.add_right_neg _).symm
  · rw [if_pos (by rw [Amount.signedCents_opposite, Int.add_right_neg])]
    cases h : a.amount.negative <;> simp [Amount.opposite, h, zero, Amount.zero]

/-- What lies between two amounts is an amount, too. -/
theorem exists_subtract_eq_ok (hcurrency : a.currency = b.currency)
    (hb : 0 ≤ b.amount.signedCents) (hle : b.amount.signedCents ≤ a.amount.signedCents) :
    ∃ c, a.subtract b = .ok c ∧ c.currency = a.currency ∧
      c.amount.signedCents = a.amount.signedCents - b.amount.signedCents := by
  have hupper := a.amount.natAbs_signedCents_lt
  obtain ⟨c, hc⟩ := Amount.exists_isSum (a := a.amount) (b := b.amount.opposite) (by
    rw [Amount.signedCents_opposite]
    omega)
  refine ⟨⟨c, a.currency⟩, subtract_eq_ok_iff.2 ⟨hcurrency, rfl, hc⟩, rfl, ?_⟩
  rw [hc.1, Amount.signedCents_opposite]
  rfl

/-- Adding up to an amount above zero gives that amount. -/
theorem add_eq_ok_of_positive (hab : a.currency = b.currency) (hcurrency : c.currency = a.currency)
    (hcents : c.amount.signedCents = a.amount.signedCents + b.amount.signedCents)
    (hpos : 0 < c.amount.signedCents) : a.add b = .ok c := by
  have hfits := c.amount.natAbs_signedCents_lt
  rw [hcents] at hfits
  obtain ⟨sum, hsum⟩ := Amount.exists_isSum hfits
  have hadd : a.add b = .ok ⟨sum, a.currency⟩ := add_eq_ok_iff.2 ⟨hab, rfl, hsum⟩
  rw [hadd, eq_of_positive (a := ⟨sum, a.currency⟩) hcurrency.symm (hsum.1.trans hcents.symm) hpos]

/-- A product is rounded to cents in the currency of the money. -/
theorem scale_eq_ok_iff {factor : Decimal} :
    a.scale factor = .ok b ↔
      b.currency = a.currency ∧ ∃ product, a.amount.toDecimal.mul factor = .ok product ∧
        Amount.round product = .ok b.amount := by
  constructor
  · intro h
    obtain ⟨product, hproduct, h⟩ := Except.bind_eq_ok_iff.1 h
    obtain ⟨amount, hamount, h⟩ := Except.bind_eq_ok_iff.1 h
    obtain rfl := Except.ok.inj h
    exact ⟨rfl, product, ofSignal_eq_ok_iff.1 hproduct, hamount⟩
  · rintro ⟨hcurrency, product, hproduct, hround⟩
    rw [scale, hproduct, ofSignal, Except.ok_bind, hround, ← hcurrency]
    rfl

end Money

end Billing
