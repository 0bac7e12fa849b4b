import Billing.Item
import Billing.Proofs.Decimal.Value
import Billing.Proofs.Invoice.Totals

set_option autoImplicit false

/-! # Failures that carry a code

Checks fail with a code; what fails without one is an operation on decimals. `Coded` says that a
computation gives a value or fails with a code, and it is found out part by part (`coded_bind_iff`,
`coded_foldlM_iff`). Tax rates and items are always made so, and so are sums; an amount, a product
or a quotient is coded exactly if its size is below the limit of rounding.
-/

namespace Billing

/-- A computation that gives a value or fails with a code. -/
def Coded {α : Type} (r : Except Failure α) : Prop :=
  (∃ a, r = .ok a) ∨ ∃ e code, r = .error e ∧ e.code? = some code

section Computations

variable {α β : Type} {x r : Except Failure α} {e : Failure}

@[simp] theorem coded_ok (a : α) : Coded (.ok a) := .inl ⟨a, rfl⟩

theorem coded_error_iff :
    Coded (.error e : Except Failure α) ↔ ∃ code, e.code? = some code := by
  simp [Coded]

@[simp] theorem coded_required (field : String) :
    Coded (.error (.required field) : Except Failure α) := coded_error_iff.2 ⟨_, rfl⟩

@[simp] theorem coded_invalid (field shown : String) :
    Coded (.error (.invalid field shown) : Except Failure α) := coded_error_iff.2 ⟨_, rfl⟩

@[simp] theorem coded_broken (rule : Rule) :
    Coded (.error (.broken rule) : Except Failure α) := coded_error_iff.2 ⟨_, rfl⟩

@[simp] theorem not_coded_arithmetic (signal : Decimal.Signal) :
    ¬ Coded (.error (.arithmetic signal) : Except Failure α) := by
  simp [Coded, Failure.code?]

/-- A computation is coded when its first part is, and the rest is after each value of it. -/
theorem coded_bind_iff {f : α → Except Failure β} :
    Coded (x >>= f) ↔ Coded x ∧ ∀ a, x = .ok a → Coded (f a) := by
  cases x with
  | ok a => simp
  | error e => simp [coded_error_iff]

theorem coded_ofSignal_iff {r : Except Decimal.Signal α} :
    Coded (ofSignal r) ↔ ∀ signal, r ≠ .error signal := by
  cases r <;> simp [ofSignal]

/-- A loop is coded when each step is that it comes to. -/
theorem coded_foldlM_iff {f : β → α → Except Failure β} {xs : List α} {b : β} :
    Coded (xs.foldlM f b) ↔ ∀ before x after, xs = before ++ x :: after →
      ∀ c, before.foldlM f b = .ok c → Coded (f c x) := by
  induction xs generalizing b with
  | nil => simp
  | cons x xs ih =>
      rw [List.foldlM_cons, coded_bind_iff]
      simp only [ih]
      constructor
      · rintro ⟨hfirst, hrest⟩ before y after hsplit c hc
        cases before with
        | nil =>
            obtain ⟨rfl, -⟩ := List.cons.inj hsplit
            obtain rfl := Except.ok.inj hc
            exact hfirst
        | cons z before =>
            obtain ⟨rfl, hxs⟩ := List.cons.inj hsplit
            obtain ⟨d, hd, hc⟩ := Except.bind_eq_ok_iff.1 hc
            exact hrest d hd before y after hxs c hc
      · intro h
        refine ⟨h [] x xs rfl b rfl, fun d hd before y after hsplit c hc => ?_⟩
        refine h (x :: before) y after (by rw [hsplit, List.cons_append]) c ?_
        rw [List.foldlM_cons, hd]
        exact hc

end Computations

/-! ## Given values -/

namespace Given

theorem coded_toDecimal (field : String) (g : Given) : Coded (g.toDecimal field) := by
  unfold toDecimal
  split
  · simp
  · split <;> simp

theorem coded_toLabel (field : String) (g : Given) : Coded (g.toLabel field) := by
  unfold toLabel
  split
  · simp
  · split <;> simp

theorem coded_choose {α : Type} (field : String) (ofName? : String → Option α) (g : Given) :
    Coded (g.choose field ofName?) := by
  refine coded_bind_iff.2 ⟨g.coded_toLabel field, fun l _ => ?_⟩
  cases ofName? l.text <;> simp

end Given

/-! ## Decimals -/

namespace Decimal

variable {a b d : Decimal}

theorem coded_normalize_iff : Coded (ofSignal d.normalize) ↔ d.size < overflowLimit := by
  simp [coded_ofSignal_iff, normalize_eq_error_iff]

theorem coded_mul_iff : Coded (ofSignal (a.mul b)) ↔ a.size * b.size < overflowLimit := by
  simp [coded_ofSignal_iff, mul_eq_error_iff]

theorem coded_div_iff (hb : b.isZero = false) :
    Coded (ofSignal (a.div b)) ↔ a.size / b.size < overflowLimit := by
  simp [coded_ofSignal_iff, div_eq_error_iff hb]

end Decimal

/-! ## Amounts -/

namespace Amount

variable {a b : Amount}

theorem coded_round (d : Decimal) : Coded (Amount.round d) := by
  unfold Amount.round
  split <;> simp

/-- Amounts are far from the limit. -/
theorem size_lt (a : Amount) : a.toDecimal.size < (10 : ℚ) ^ (26 : Int) := by
  have hcents : (a.cents : ℚ) < 10 ^ (28 : Int) := by
    have hlt := Nat.cast_lt (α := ℚ).2 a.cents_lt
    rwa [cast_tenTo] at hlt
  have hsplit : (10 : ℚ) ^ (26 : Int) = 10 ^ (28 : Int) * 10 ^ (-2 : Int) := by
    rw [← ten_zpow_add]
    rfl
  rw [Decimal.size, hsplit]
  exact mul_lt_mul_of_pos_right hcents (ten_zpow_pos _)

/-- Sums stay far from the limit, so they are refused with a code when they are too long. -/
theorem coded_plus (a b : Amount) : Coded (plus a b) := by
  refine coded_bind_iff.2 ⟨coded_ofSignal_iff.2 fun signal h => ?_, fun d _ => coded_round d⟩
  rw [add_toDecimal, Decimal.round_eq_error_iff Nat.one_pos] at h
  have hsum : (a.signedCents + b.signedCents).natAbs < tenTo 29 := by
    have ha := a.natAbs_signedCents_lt
    have hb := b.natAbs_signedCents_lt
    have hten : tenTo 29 = tenTo Decimal.precision * 10 := rfl
    omega
  have hsize : ((a.signedCents + b.signedCents).natAbs : ℚ) / (1 : Nat) * (10 : ℚ) ^ (-2 : Int) <
      10 ^ Decimal.maxExponent := by
    have hlt := Nat.cast_lt (α := ℚ).2 hsum
    rw [cast_tenTo] at hlt
    rw [Nat.cast_one, div_one]
    calc ((a.signedCents + b.signedCents).natAbs : ℚ) * 10 ^ (-2 : Int)
        < 10 ^ ((29 : Nat) : Int) * 10 ^ (-2 : Int) :=
          mul_lt_mul_of_pos_right hlt (ten_zpow_pos _)
      _ = 10 ^ (27 : Int) := by
          rw [← ten_zpow_add]
          rfl
      _ ≤ 10 ^ Decimal.maxExponent := ten_zpow_le_iff.2 (by decide)
  exact (hsize.trans_le Decimal.le_overflowLimit).not_ge h.2

end Amount

/-! ## Money -/

namespace Money

variable {m : Money}

theorem coded_requireSame (pairing : Pairing) (a b : Money) :
    Coded (requireSame pairing a b) := by
  unfold requireSame
  split <;> simp

theorem coded_add (a b : Money) : Coded (a.add b) := by
  rw [add_eq]
  refine coded_bind_iff.2 ⟨coded_requireSame .add a b, fun _ _ => coded_bind_iff.2 ⟨?_, ?_⟩⟩
  · exact Amount.coded_plus _ _
  · exact fun sum _ => coded_ok _

theorem coded_subtract (a b : Money) : Coded (a.subtract b) := by
  rw [subtract_eq]
  refine coded_bind_iff.2 ⟨coded_requireSame .subtract a b, fun _ _ => coded_bind_iff.2 ⟨?_, ?_⟩⟩
  · exact Amount.coded_plus _ _
  · exact fun difference _ => coded_ok _

/-- Making money is coded exactly if the amount is below the limit, however few digits it has. -/
theorem coded_of_iff {amount currency : Given} :
    Coded (Money.of amount currency) ↔
      ∀ d, amount.toDecimal "amount" = .ok d → d.size < Decimal.overflowLimit := by
  rw [Money.of, coded_bind_iff, and_iff_right (Given.coded_toDecimal _ _)]
  refine forall_congr' fun d => forall_congr' fun _ => ?_
  rw [coded_bind_iff, Decimal.coded_normalize_iff, and_iff_left]
  -- what comes after the normal form is checked
  intro reduced _
  have hrest : Coded (Amount.round d >>= fun a => Currency.ofGiven currency >>= fun c =>
      .ok (⟨a, c⟩ : Money)) :=
    coded_bind_iff.2 ⟨Amount.coded_round d, fun a _ =>
      coded_bind_iff.2 ⟨Given.coded_choose _ _ _, fun c _ => coded_ok _⟩⟩
  split
  · simp
  · exact hrest

/-- A product is coded exactly if its size is below the limit. -/
theorem coded_scale_iff {factor : Decimal} :
    Coded (m.scale factor) ↔ m.amount.toDecimal.size * factor.size < Decimal.overflowLimit := by
  rw [scale, coded_bind_iff, Decimal.coded_mul_iff, and_iff_left]
  exact fun product _ => coded_bind_iff.2 ⟨Amount.coded_round product, fun a _ => coded_ok _⟩

theorem coded_multiply_iff {factor : Given} :
    Coded (m.multiply factor) ↔ ∀ d, factor.toDecimal "factor" = .ok d →
      m.amount.toDecimal.size * d.size < Decimal.overflowLimit := by
  rw [multiply, coded_bind_iff, and_iff_right (Given.coded_toDecimal _ _)]
  exact forall_congr' fun d => forall_congr' fun _ => coded_scale_iff

/-- A quotient is coded exactly if its size is below the limit. -/
theorem coded_divide_iff {divisor : Given} :
    Coded (m.divide divisor) ↔ ∀ d, divisor.toDecimal "divisor" = .ok d → d.isZero = false →
      m.amount.toDecimal.size / d.size < Decimal.overflowLimit := by
  rw [divide, coded_bind_iff, and_iff_right (Given.coded_toDecimal _ _)]
  refine forall_congr' fun d => forall_congr' fun _ => ?_
  cases hzero : d.isZero with
  | true => simp
  | false =>
      simp only [Bool.false_eq_true, if_false, forall_const]
      rw [coded_bind_iff, Decimal.coded_div_iff hzero, and_iff_left]
      exact fun quotient _ => coded_bind_iff.2 ⟨Amount.coded_round quotient, fun a _ => coded_ok _⟩

end Money

/-! ## Tax rates -/

namespace TaxRate

theorem coded_of (rate kind : Given) : Coded (TaxRate.of rate kind) := by
  refine coded_bind_iff.2 ⟨Given.coded_toDecimal _ _, fun d _ => ?_⟩
  split
  · exact coded_bind_iff.2 ⟨Given.coded_choose _ _ _, fun k _ => coded_ok _⟩
  · simp

theorem rate_nonneg (t : TaxRate) : 0 ≤ t.rate.value := by
  have hlower := Decimal.le_iff.1 (Bool.and_eq_true_iff.1 t.isPercentage).1
  rwa [Decimal.value_zero] at hlower

theorem rate_le (t : TaxRate) : t.rate.value ≤ 100 := by
  have hupper := Decimal.le_iff.1 (Bool.and_eq_true_iff.1 t.isPercentage).2
  rwa [Decimal.value_hundred] at hupper

/-- The product with a percentage stays far from the limit. -/
theorem size_mul_lt (t : TaxRate) (a : Amount) :
    a.toDecimal.size * t.rate.size < Decimal.overflowLimit := by
  have hrate : t.rate.size ≤ 100 := by
    rw [← Decimal.abs_value, abs_of_nonneg t.rate_nonneg]
    exact t.rate_le
  calc a.toDecimal.size * t.rate.size ≤ a.toDecimal.size * 10 ^ (2 : Int) :=
        mul_le_mul_of_nonneg_left (by norm_num [hrate]) (Decimal.size_nonneg _)
    _ < 10 ^ (26 : Int) * 10 ^ (2 : Int) := mul_lt_mul_of_pos_right a.size_lt (ten_zpow_pos 2)
    _ = 10 ^ (28 : Int) := (ten_zpow_add 26 2).symm
    _ ≤ 10 ^ Decimal.maxExponent := ten_zpow_le_iff.2 (by decide)
    _ ≤ Decimal.overflowLimit := Decimal.le_overflowLimit

/-- So does the tax on an amount. -/
theorem coded_taxOn (t : TaxRate) (a : Amount) : Coded (t.taxOn a.toDecimal) := by
  refine coded_bind_iff.2 ⟨Decimal.coded_mul_iff.2 (t.size_mul_lt a), fun product h => ?_⟩
  have hshare : product.size / Decimal.hundred.size < Decimal.overflowLimit := by
    have hadjusted := Decimal.adjusted_le_of_round (ofSignal_eq_ok_iff.1 h)
    have hhundred : Decimal.hundred.size = 10 ^ (2 : Int) := by
      norm_num [Decimal.size, Decimal.hundred]
    rw [hhundred, div_lt_iff₀ (ten_zpow_pos 2)]
    calc product.size < 10 ^ (product.adjusted + 1) := product.size_lt
      _ ≤ 10 ^ (Decimal.maxExponent + 2) := ten_zpow_le_iff.2 (by omega)
      _ = 10 ^ Decimal.maxExponent * 10 ^ (2 : Int) := ten_zpow_add _ _
      _ ≤ Decimal.overflowLimit * 10 ^ (2 : Int) :=
          mul_le_mul_of_nonneg_right Decimal.le_overflowLimit (ten_zpow_pos 2).le
  exact coded_bind_iff.2 ⟨(Decimal.coded_div_iff rfl).2 hshare, fun share _ =>
    Amount.coded_round share⟩

end TaxRate

/-! ## Items -/

namespace LineItem

theorem coded_quantityOf (g : Given) : Coded (quantityOf g) := by
  refine coded_bind_iff.2 ⟨Given.coded_toDecimal _ _, fun d _ => ?_⟩
  split <;> simp

theorem coded_unitPriceOf (g : Given) : Coded (unitPriceOf g) := by
  cases g <;> simp only [unitPriceOf, coded_required, coded_invalid]
  case money m => split <;> simp

theorem coded_of (f : ItemFields) (new : Identifier) : Coded (LineItem.of f new) := by
  refine coded_bind_iff.2 ⟨Given.coded_toLabel _ _, fun description _ => ?_⟩
  refine coded_bind_iff.2 ⟨coded_quantityOf _, fun quantity _ => ?_⟩
  exact coded_bind_iff.2 ⟨coded_unitPriceOf _, fun price _ => coded_ok _⟩

/-- The exact subtotal is below the limit of rounding. -/
def WithinLimit (i : LineItem) : Prop :=
  i.unitPrice.amount.toDecimal.size * i.quantity.size < Decimal.overflowLimit

variable {i : LineItem}

theorem coded_subtotal_iff : Coded i.subtotal ↔ i.WithinLimit := Money.coded_scale_iff

theorem coded_tax_iff : Coded i.tax ↔ i.WithinLimit := by
  rw [tax, coded_bind_iff, coded_subtotal_iff, and_iff_left]
  exact fun subtotal _ => coded_bind_iff.2
    ⟨i.taxRate.coded_taxOn subtotal.amount, fun tax _ => coded_ok _⟩

theorem coded_total_iff : Coded i.total ↔ i.WithinLimit := by
  rw [total, coded_bind_iff, coded_subtotal_iff, and_iff_left_iff_imp]
  exact fun hlimit subtotal _ => coded_bind_iff.2
    ⟨coded_tax_iff.2 hlimit, fun tax _ => Money.coded_add subtotal tax⟩

end LineItem

end Billing
