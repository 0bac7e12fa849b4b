import Billing.Proofs.Decimal.Text
import Billing.Proofs.Money.Product
import Billing.Proofs.Text.Grouping

set_option autoImplicit false

/-! # What is displayed

Money is displayed as a sign, the symbol of its currency and a number whose digits are in groups
(`Money.IsDisplayed`). Without the commas the number is the text of a decimal, namely of the size of
the amount, so it can be read back (`Money.filter_numberChars`). Neither the sign nor a symbol can
be taken for another one or for a digit, so money that looks the same is in one currency and has
amounts of one value (`Money.display_determines_money`).
-/

namespace Billing

/-! ## Signs and symbols -/

namespace Currency

variable {a b c : Currency} {s t : Bool}

theorem mem_all (c : Currency) : c ∈ all := by
  cases c <;> decide

theorem symbol_injective : Function.Injective symbol := by
  intro a b h
  have hnodup : (all.map symbol).Nodup := by decide
  exact List.inj_on_of_nodup_map hnodup (mem_all a) (mem_all b) h

theorem minus_notMem_symbol (c : Currency) : '-' ∉ c.symbol.toList := by
  have hall : ∀ c ∈ all, '-' ∉ c.symbol.toList := by decide
  exact hall c (mem_all c)

theorem isAsciiDigit_of_mem_symbol {x : Char} (h : x ∈ c.symbol.toList) :
    Text.isAsciiDigit x = false := by
  have hall : ∀ c ∈ all, (c.symbol.toList.any Text.isAsciiDigit) = false := by decide
  exact eq_false_of_ne_true (List.any_eq_false.1 (hall c (mem_all c)) x h)

/-- Symbols end in one another, but with a sign in front they still differ. -/
theorem signed_symbol_inj (h : Decimal.signChars s ++ a.symbol.toList =
    Decimal.signChars t ++ b.symbol.toList) : s = t ∧ a = b := by
  -- the sign shows in the minus sign, which no symbol has
  have hsign : ∀ (s : Bool) (c : Currency),
      '-' ∈ Decimal.signChars s ++ c.symbol.toList ↔ s = true := by
    intro s c
    cases s <;> simp [Decimal.signChars, c.minus_notMem_symbol]
  obtain rfl : s = t := by
    rw [Bool.eq_iff_iff, ← hsign s a, h, hsign t b]
  exact ⟨rfl, symbol_injective (String.toList_injective (List.append_cancel_left h))⟩

end Currency

/-! ## Numbers -/

/-- The size of an amount. -/
def Amount.unsigned (a : Amount) : Decimal := ⟨false, a.cents, -2⟩

namespace Amount

variable {a b : Amount}

theorem value_unsigned (a : Amount) : a.unsigned.value = |a.value| := by
  rw [← value_toDecimal, Decimal.abs_value]
  rfl

/-- Without its sign it can be read as well. -/
theorem readable_unsigned (a : Amount) : a.unsigned.readable = true := a.readable_toDecimal

/-- Two places are few enough for plain notation. -/
theorem chars_unsigned (a : Amount) :
    a.unsigned.chars = Decimal.withPoint 2 (Digits.chars a.cents) := by
  have hplain : a.unsigned.exponent ≤ 0 ∧ -6 ≤ a.unsigned.adjusted := by
    have hexponent : a.unsigned.exponent = -2 := rfl
    rw [Decimal.adjusted, hexponent]
    omega
  rw [Decimal.chars, if_pos hplain]
  rfl

theorem cents_eq_of_value_eq (h : a.value = b.value) : a.cents = b.cents := by
  have hcents : a.signedCents = b.signedCents :=
    le_antisymm (value_le_iff.1 h.le) (value_le_iff.1 h.ge)
  rw [← natAbs_signedCents, ← natAbs_signedCents, hcents]

end Amount

/-- The groups and the places of a number as it is displayed. The first group begins with a zero
only if this is all there is before the point. -/
structure Displayed (first : List Char) (rest : List (List Char)) (places : List Char) : Prop where
  grouping : Text.Grouping first rest
  digits : ∀ c ∈ first ++ rest.flatten ++ places, Text.isAsciiDigit c = true
  leading : first.head? = some '0' → first = ['0'] ∧ rest = []
  two_places : places.length = 2

/-- A number as it is displayed: groups of digits with commas between them, a point and two
digits. -/
def IsDisplayed (number : List Char) : Prop :=
  ∃ first rest places, Displayed first rest places ∧
    number = Text.joined first rest ++ '.' :: places

theorem IsDisplayed.exists_digit_cons {number : List Char} (h : IsDisplayed number) :
    ∃ c cs, number = c :: cs ∧ Text.isAsciiDigit c = true := by
  obtain ⟨first, rest, places, hparts, rfl⟩ := h
  obtain ⟨c, cs, rfl⟩ := List.exists_cons_of_length_pos hparts.grouping.first_pos
  exact ⟨c, _, rfl, hparts.digits c (by simp)⟩

/-- Digits of which the first is zero only if it stands alone are grouped in the same way. -/
theorem leading_of_head? {units : List Nat} {first : List Char} {rest : List (List Char)}
    (digits : ∀ d ∈ units, d < 10) (hzero : units.head? = some 0 → units = [0])
    (grouping : Text.Grouping first rest)
    (hflat : first ++ rest.flatten = units.map Text.digitChar)
    (hhead : first.head? = some '0') : first = ['0'] ∧ rest = [] := by
  obtain ⟨c, cs, rfl⟩ := List.exists_cons_of_length_pos grouping.first_pos
  obtain rfl : c = '0' := Option.some.inj hhead
  obtain ⟨d, ds, rfl, hd, hds⟩ := List.map_eq_cons_iff.1 hflat.symm
  have hd0 : d = 0 := by
    have hdigit := Text.asciiDigit?_digitChar (digits d List.mem_cons_self)
    rw [hd] at hdigit
    exact (Option.some.inj hdigit).symm
  subst hd0
  obtain ⟨-, rfl⟩ := List.cons.inj (hzero rfl)
  have hnil := List.append_eq_nil_iff.1 hds.symm
  refine ⟨by rw [hnil.1], List.eq_nil_iff_forall_not_mem.2 fun g hg => ?_⟩
  have hthree := grouping.rest_eq g hg
  rw [List.flatten_eq_nil_iff.1 hnil.2 g hg] at hthree
  cases hthree

namespace Money

variable {a b m : Money}

/-- The number that money is displayed with. -/
def numberChars (m : Money) : List Char :=
  Text.groupThousands m.amount.unitsAndPlaces.1 ++ '.' :: m.amount.unitsAndPlaces.2

theorem displayChars_eq (m : Money) :
    m.displayChars =
      (Decimal.signChars m.isNegative ++ m.currency.symbol.toList) ++ m.numberChars := by
  simp [displayChars, numberChars, Decimal.signChars]

theorem isNegative_eq (m : Money) : m.isNegative = decide (m.value < 0) := by
  have hsign : m.value < 0 ↔ m.amount.signedCents < 0 := by
    rw [← not_le, ← not_le, value, Amount.value_nonneg_iff]
  simp [isNegative, Amount.isNegative, hsign]

/-- The number is the text of the size of the amount, with commas between groups of digits. -/
theorem isDisplayed_numberChars (m : Money) :
    IsDisplayed m.numberChars ∧ m.numberChars.filter (· ≠ ',') = m.amount.unsigned.chars := by
  obtain ⟨units, places, hsplit, hunits, hlength⟩ :=
    Digits.exists_filled_eq_append 2 m.amount.cents
  have hparts : m.amount.unitsAndPlaces =
      (units.map Text.digitChar, places.map Text.digitChar) := by
    simp [Amount.unitsAndPlaces, Digits.zeroFill_chars, hsplit, hlength]
  have hne : units.map Text.digitChar ≠ [] := by simpa using hunits
  obtain ⟨first, rest, grouping, hflat, hjoined⟩ := Text.exists_grouping hne
  have hnumber : m.numberChars = Text.joined first rest ++ '.' :: places.map Text.digitChar := by
    rw [numberChars, hparts, hjoined]
  have hten : ∀ d ∈ units ++ places, d < 10 := by
    rw [← hsplit]
    exact fun d hd => Digits.lt_ten_of_mem_filled hd
  have digits : ∀ c ∈ first ++ rest.flatten ++ places.map Text.digitChar,
      Text.isAsciiDigit c = true := by
    rw [hflat, ← List.map_append]
    intro c hc
    obtain ⟨d, hd, rfl⟩ := List.mem_map.1 hc
    exact Text.isAsciiDigit_digitChar (hten d hd)
  have hcomma : ∀ c ∈ first ++ rest.flatten ++ places.map Text.digitChar, c ≠ ',' := by
    rintro c hc rfl
    exact absurd (digits _ hc) (by decide)
  refine ⟨⟨first, rest, _, ⟨grouping, digits, ?_, by rw [List.length_map, hlength]⟩, hnumber⟩, ?_⟩
  · exact leading_of_head? (fun d hd => hten d (List.mem_append_left _ hd))
      (Digits.eq_of_head?_filled hsplit hlength) grouping hflat
  · have hplaces : (places.map Text.digitChar).filter (· ≠ ',') = places.map Text.digitChar :=
      List.filter_eq_self.2 fun c hc => decide_eq_true (hcomma c (List.mem_append_right _ hc))
    rw [hnumber, List.filter_append, List.filter_cons_of_pos (by decide), hplaces,
      Text.filter_joined fun c hc => hcomma c (List.mem_append_left _ hc), hflat,
      Amount.chars_unsigned, Decimal.withPoint_of_split hsplit hlength, if_neg (by decide)]

/-- Without the commas, the number is read as the size of the amount. -/
theorem ofText?_numberChars (m : Money) :
    Numeral.ofText? (String.ofList (m.numberChars.filter (· ≠ ','))) =
      some (.finite m.amount.unsigned) := by
  rw [m.isDisplayed_numberChars.2]
  exact Numeral.ofText?_text m.amount.readable_unsigned

/-! ## What looks the same -/

/-- The number begins at the first digit. -/
theorem takeWhile_displayChars (m : Money) :
    m.displayChars.takeWhile (fun c => !Text.isAsciiDigit c) =
      Decimal.signChars m.isNegative ++ m.currency.symbol.toList := by
  have hbefore : ∀ c ∈ Decimal.signChars m.isNegative ++ m.currency.symbol.toList,
      (!Text.isAsciiDigit c) = true := by
    intro c hc
    rw [Bool.not_eq_true']
    rcases List.mem_append.1 hc with hc | hc
    · cases hsign : m.isNegative <;> simp [Decimal.signChars, hsign] at hc
      subst hc
      decide
    · exact Currency.isAsciiDigit_of_mem_symbol hc
  obtain ⟨c, cs, hnumber, hdigit⟩ := m.isDisplayed_numberChars.1.exists_digit_cons
  rw [displayChars_eq, List.takeWhile_append_of_pos hbefore, hnumber,
    List.takeWhile_cons_of_neg (by simp [hdigit]), List.append_nil]

theorem eq_of_displayChars (h : a.displayChars = b.displayChars) :
    a.currency = b.currency ∧ a.value = b.value := by
  have hfront : Decimal.signChars a.isNegative ++ a.currency.symbol.toList =
      Decimal.signChars b.isNegative ++ b.currency.symbol.toList := by
    rw [← takeWhile_displayChars, h, takeWhile_displayChars]
  obtain ⟨hsign, hcurrency⟩ := Currency.signed_symbol_inj hfront
  have hnumber : a.numberChars = b.numberChars := by
    rw [displayChars_eq, displayChars_eq, hfront] at h
    exact List.append_cancel_left h
  -- numbers that look the same are read as one size
  have hsize : |a.value| = |b.value| := by
    have hread := a.ofText?_numberChars
    rw [hnumber, ofText?_numberChars] at hread
    have hunsigned := Numeral.finite.inj (Option.some.inj hread)
    rw [value, value, ← Amount.value_unsigned, ← Amount.value_unsigned, hunsigned]
  rw [isNegative_eq, isNegative_eq, decide_eq_decide] at hsign
  refine ⟨hcurrency, ?_⟩
  rcases lt_or_ge a.value 0 with ha | ha
  · rwa [abs_of_neg ha, abs_of_neg (hsign.1 ha), neg_inj] at hsize
  · rwa [abs_of_nonneg ha, abs_of_nonneg (not_lt.1 fun hb => (hsign.2 hb).not_ge ha)] at hsize

theorem displayChars_congr (hcurrency : a.currency = b.currency) (hvalue : a.value = b.value) :
    a.displayChars = b.displayChars := by
  have hcents : a.amount.cents = b.amount.cents := Amount.cents_eq_of_value_eq hvalue
  rw [displayChars_eq, displayChars_eq, isNegative_eq, isNegative_eq, hvalue, hcurrency,
    numberChars, numberChars, Amount.unitsAndPlaces, Amount.unitsAndPlaces, hcents]

/-- Money is displayed with a minus sign if it is below zero, its symbol, and a number that is read
as the size of its amount. So it looks like other money exactly if that is in the same currency and
of the same value, and `-0.00` looks like `0.00`. -/
theorem display_determines_money :
    (∀ m : Money, ∃ number d,
      m.display = String.ofList
        ((if m.value < 0 then ['-'] else []) ++ m.currency.symbol.toList ++ number) ∧
      IsDisplayed number ∧
      Numeral.ofText? (String.ofList (number.filter (· ≠ ','))) = some (.finite d) ∧
      d.value = |m.value|) ∧
    ∀ a b : Money, a.display = b.display ↔ a.currency = b.currency ∧ a.value = b.value := by
  refine ⟨fun m => ⟨m.numberChars, m.amount.unsigned, ?_, m.isDisplayed_numberChars.1,
    m.ofText?_numberChars, m.amount.value_unsigned⟩, fun a b => ⟨fun h => ?_, fun h => ?_⟩⟩
  · rw [display, displayChars_eq, isNegative_eq, Decimal.signChars]
    simp
  · exact eq_of_displayChars (String.ofList_injective h)
  · rw [display, display, displayChars_congr h.1 h.2]

example : display ⟨⟨true, 123450, by decide⟩, .usd⟩ = "-$1,234.50" := by
  decide +kernel

end Money

end Billing
