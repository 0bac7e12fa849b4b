import Billing.Proofs.Coded
import Billing.Proofs.Money.Product

set_option autoImplicit false

/-! # Laws of sums of money

A sum or a difference of money is the exact one if this is below `10 ^ 26` units, and is refused if
not (`Money.ExactOrRefused`). So sums can be taken back, and neither the order of the summands nor
that of the additions matters. This is true of the minus sign of zero, too: a sum is zero with a
minus sign only if both summands are (`Amount.IsSum.isMinusZero_iff`). Money of two currencies is
neither added nor compared. `Money.sums_exact_or_refused` has all of it.
-/

namespace Billing

namespace Amount

variable {a b c ab bc l r : Amount} {e : Failure}

/-! ## The minus sign of zero -/

/-- Zero with a minus sign. -/
def IsMinusZero (a : Amount) : Prop := a.negative = true ∧ a.signedCents = 0

theorem signedCents_nonpos (h : a.negative = true) : a.signedCents ≤ 0 := by
  rw [signedCents, if_pos h]
  omega

/-- Amounts are told apart by their value and the minus sign of zero. -/
theorem ext_minusZero (hcents : a.signedCents = b.signedCents)
    (hzero : a.IsMinusZero ↔ b.IsMinusZero) : a = b := by
  refine ext_signed ?_ hcents
  by_cases h : a.signedCents = 0
  · simp only [IsMinusZero, ← hcents, h, and_true] at hzero
    exact Bool.eq_iff_iff.2 hzero
  · rw [negative_eq_of_ne_zero h, negative_eq_of_ne_zero (hcents ▸ h), hcents]

theorem IsSum.isMinusZero_iff (h : IsSum a b c) :
    c.IsMinusZero ↔ a.IsMinusZero ∧ b.IsMinusZero := by
  obtain ⟨hcents, hsign⟩ := h
  rw [← hcents] at hsign
  constructor
  · rintro ⟨hnegative, hzero⟩
    rw [if_pos hzero, hnegative, eq_comm, Bool.and_eq_true] at hsign
    -- both summands carry a minus sign, so none makes up for the other
    have ha := signedCents_nonpos hsign.1
    have hb := signedCents_nonpos hsign.2
    exact ⟨⟨hsign.1, by omega⟩, ⟨hsign.2, by omega⟩⟩
  · rintro ⟨⟨ha, hazero⟩, ⟨hb, hbzero⟩⟩
    have hzero : c.signedCents = 0 := by omega
    rw [if_pos hzero, ha, hb] at hsign
    exact ⟨hsign, hzero⟩

/-! ## Sums of amounts -/

theorem IsSum.assoc (hab : IsSum a b ab) (hl : IsSum ab c l) (hbc : IsSum b c bc)
    (hr : IsSum a bc r) : l = r := by
  refine ext_minusZero ?_ ?_
  · rw [hl.1, hab.1, hr.1, hbc.1, add_assoc]
  · rw [hl.isMinusZero_iff, hab.isMinusZero_iff, hr.isMinusZero_iff, hbc.isMinusZero_iff,
      and_assoc]

theorem plus_comm (a b : Amount) : plus a b = plus b a := by
  rw [plus, plus, add_toDecimal, add_toDecimal, add_comm, Bool.and_comm]

/-- A sum that cannot be made is refused as an amount. -/
theorem plus_eq_error (h : plus a b = .error e) : ∃ shown, e = .invalid "amount" shown := by
  have hcoded := coded_plus a b
  cases hadd : a.toDecimal.add b.toDecimal with
  | error signal =>
      rw [plus, hadd] at hcoded
      exact absurd hcoded (not_coded_arithmetic signal)
  | ok d =>
      rw [plus, hadd] at h
      exact ⟨_, round_eq_error h⟩

theorem value_opposite (a : Amount) : a.opposite.value = -a.value := by
  rw [value, signedCents_opposite, Int.cast_neg, neg_div, value]

theorem abs_value_add_lt_iff (a b : Amount) :
    |a.value + b.value| < 10 ^ 26 ↔
      (a.signedCents + b.signedCents).natAbs < tenTo Decimal.precision := by
  have hsum : a.value + b.value = ((a.signedCents + b.signedCents : ℤ) : ℚ) / 100 := by
    rw [value, value, ← add_div, Int.cast_add]
  rw [WholeCents.abs_lt_iff ⟨_, hsum⟩, hsum, inCents_intCast_div, ← Nat.cast_lt (α := ℤ),
    Int.natCast_natAbs, tenTo_precision]

/-- A sum is the exact one, or it has too many digits and is refused. -/
theorem plus_cases (a b : Amount) :
    if |a.value + b.value| < 10 ^ 26 then ∃ c, plus a b = .ok c ∧ c.value = a.value + b.value
    else ∃ shown, plus a b = .error (.invalid "amount" shown) := by
  split
  next hfits =>
    obtain ⟨c, hc⟩ := exists_isSum ((abs_value_add_lt_iff a b).1 hfits)
    refine ⟨c, plus_of_isSum hc, ?_⟩
    rw [value, hc.1, value, value, ← add_div, Int.cast_add]
  next hlong =>
    cases h : plus a b with
    | ok c => exact absurd ((abs_value_add_lt_iff a b).2 (natAbs_lt_of_plus h)) hlong
    | error e =>
        obtain ⟨shown, rfl⟩ := plus_eq_error h
        exact ⟨shown, rfl⟩

end Amount

namespace Money

variable {a b c s : Money}

/-- What a computation comes to that is never rounded: the exact result, if amounts can be as large
as that, and a refusal if not. -/
def ExactOrRefused (r : Except Failure Money) (currency : Currency) (x : ℚ) : Prop :=
  if |x| < 10 ^ 26 then ∃ m, r = .ok m ∧ m.currency = currency ∧ m.value = x
  else ∃ shown, r = .error (.invalid "amount" shown)

theorem exactOrRefused_add (h : a.currency = b.currency) :
    ExactOrRefused (a.add b) a.currency (a.value + b.value) := by
  have hsum := Amount.plus_cases a.amount b.amount
  rw [add_eq, requireSame_of_eq h, Except.ok_bind, ExactOrRefused, value, value]
  split at hsum
  next hfits =>
    obtain ⟨sum, hplus, hvalue⟩ := hsum
    rw [if_pos hfits, hplus]
    exact ⟨⟨sum, a.currency⟩, rfl, rfl, hvalue⟩
  next hlong =>
    obtain ⟨shown, hplus⟩ := hsum
    rw [if_neg hlong, hplus]
    exact ⟨shown, rfl⟩

/-- A difference is the sum with the opposite amount. -/
theorem subtract_eq_add (h : a.currency = b.currency) :
    a.subtract b = a.add { b with amount := b.amount.opposite } := by
  have hopposite : a.currency = currency { b with amount := b.amount.opposite } := h
  rw [subtract_eq, add_eq, requireSame_of_eq h, requireSame_of_eq hopposite]

theorem exactOrRefused_subtract (h : a.currency = b.currency) :
    ExactOrRefused (a.subtract b) a.currency (a.value - b.value) := by
  have hvalue : value { b with amount := b.amount.opposite } = -b.value :=
    Amount.value_opposite b.amount
  rw [subtract_eq_add h, sub_eq_add_neg, ← hvalue]
  exact exactOrRefused_add (by exact h)

theorem add_comm_of_same (h : a.currency = b.currency) : a.add b = b.add a := by
  rw [add_eq, add_eq, requireSame_of_eq h, requireSame_of_eq h.symm, Amount.plus_comm, h]

/-- What has been added can be taken back. -/
theorem exists_subtract_of_add (h : a.add b = .ok s) :
    ∃ r, s.subtract b = .ok r ∧ r.equals a = .ok true := by
  obtain ⟨hsame, hcurrency, hcents, -⟩ := add_eq_ok_iff.1 h
  have hback : s.amount.signedCents + b.amount.opposite.signedCents = a.amount.signedCents := by
    rw [hcents, Amount.signedCents_opposite]
    omega
  obtain ⟨r, hr⟩ := Amount.exists_isSum (hback ▸ a.amount.natAbs_signedCents_lt)
  refine ⟨⟨r, s.currency⟩, subtract_eq_ok_iff.2 ⟨hcurrency.trans hsame, rfl, hr⟩, ?_⟩
  rw [equals_eq_ok_iff]
  exact ⟨hcurrency, (decide_eq_true (hr.1.trans hback)).symm⟩

theorem add_assoc_of_ok {ab bc l r : Money} (hab : a.add b = .ok ab) (hbc : b.add c = .ok bc)
    (hl : ab.add c = .ok l) (hr : a.add bc = .ok r) : l = r := by
  obtain ⟨-, habCurrency, habSum⟩ := add_eq_ok_iff.1 hab
  obtain ⟨-, -, hbcSum⟩ := add_eq_ok_iff.1 hbc
  obtain ⟨-, hlCurrency, hlSum⟩ := add_eq_ok_iff.1 hl
  obtain ⟨-, hrCurrency, hrSum⟩ := add_eq_ok_iff.1 hr
  have hamount : l.amount = r.amount := habSum.assoc hlSum hbcSum hrSum
  have hcurrency : l.currency = r.currency := by rw [hlCurrency, habCurrency, hrCurrency]
  calc l = ⟨l.amount, l.currency⟩ := rfl
    _ = ⟨r.amount, r.currency⟩ := by rw [hamount, hcurrency]
    _ = r := rfl

/-- Money of one currency is added and subtracted exactly, or it is refused because the exact result
is not below `10 ^ 26` units. What has been added can be taken back; the order of the summands does
not matter at all, and that of two additions does not if both can be made. Money of different
currencies is refused for that reason wherever it meets. -/
theorem sums_exact_or_refused (a b c : Money) :
    (a.currency = b.currency →
      ExactOrRefused (a.add b) a.currency (a.value + b.value) ∧
      ExactOrRefused (a.subtract b) a.currency (a.value - b.value) ∧
      (∀ s, a.add b = .ok s → ∃ r, s.subtract b = .ok r ∧ r.equals a = .ok true) ∧
      a.add b = b.add a) ∧
    (∀ ab bc l r, a.add b = .ok ab → b.add c = .ok bc → ab.add c = .ok l → a.add bc = .ok r →
      l = r) ∧
    (a.currency ≠ b.currency →
      a.add b = .error (.broken (.differentCurrencies .add a.currency b.currency)) ∧
      a.subtract b = .error (.broken (.differentCurrencies .subtract a.currency b.currency)) ∧
      a.equals b = .error (.broken (.differentCurrencies .compare a.currency b.currency)) ∧
      a.isGreaterThan b = .error (.broken (.differentCurrencies .compare a.currency b.currency)) ∧
      a.isLessThan b =
        .error (.broken (.differentCurrencies .compare a.currency b.currency))) := by
  refine ⟨fun h => ⟨?_, ?_, ?_, ?_⟩, fun ab bc l r => add_assoc_of_ok, fun h => ?_⟩
  · exact exactOrRefused_add h
  · exact exactOrRefused_subtract h
  · exact fun s => exists_subtract_of_add
  · exact add_comm_of_same h
  · simp [add, subtract, equals, isGreaterThan, isLessThan, requireSame_of_ne h]

/-- Nothing is added to the largest amount, but it can be made less by a cent. -/
theorem sums_exact_or_refused_sample :
    ¬|value ⟨.largest, .usd⟩ + value ⟨⟨false, 1, by decide⟩, .usd⟩| < 10 ^ 26 ∧
      (∃ shown, add ⟨.largest, .usd⟩ ⟨⟨false, 1, by decide⟩, .usd⟩ =
        .error (.invalid "amount" shown)) ∧
      (∃ m, subtract ⟨.largest, .usd⟩ ⟨⟨false, 1, by decide⟩, .usd⟩ = .ok m ∧
        m.currency = .usd ∧ m.value = 10 ^ 26 - 1 / 50) ∧
      equals ⟨.largest, .usd⟩ ⟨⟨false, 1, by decide⟩, .eur⟩ =
        .error (.broken (.differentCurrencies .compare .usd .eur)) := by
  have hlargest : value ⟨.largest, .usd⟩ = 10 ^ 26 - 1 / 100 := Amount.value_largest
  have hcent : value ⟨⟨false, 1, by decide⟩, .usd⟩ = 1 / 100 := by
    norm_num [value, Amount.value, Amount.signedCents]
  have hlong : ¬|value ⟨.largest, .usd⟩ + value ⟨⟨false, 1, by decide⟩, .usd⟩| < 10 ^ 26 := by
    rw [hlargest, hcent]
    norm_num
  have hfits : |value ⟨.largest, .usd⟩ - value ⟨⟨false, 1, by decide⟩, .usd⟩| < 10 ^ 26 := by
    rw [hlargest, hcent]
    norm_num
  obtain ⟨hsum, hdifference, -⟩ := (sums_exact_or_refused ⟨.largest, .usd⟩
    ⟨⟨false, 1, by decide⟩, .usd⟩ (zero .usd)).1 rfl
  obtain ⟨-, -, hequals, -⟩ := (sums_exact_or_refused ⟨.largest, .usd⟩
    ⟨⟨false, 1, by decide⟩, .eur⟩ (zero .usd)).2.2 (by decide)
  rw [ExactOrRefused, if_neg hlong] at hsum
  rw [ExactOrRefused, if_pos hfits] at hdifference
  obtain ⟨m, hm, hcurrency, hvalue⟩ := hdifference
  refine ⟨hlong, hsum, ⟨m, hm, hcurrency, ?_⟩, hequals⟩
  rw [hvalue, hlargest, hcent]
  norm_num

end Money

end Billing
