import Billing.Invoice.Number
import Billing.Proofs.Given

set_option autoImplicit false

/-! # Numbers from a counter

A number is a series, a hyphen and a sequence (`isInvoiceNumber_iff`). One that is made for a series
from a value of a counter has that series, and the value as its sequence
(`InvoiceNumber.ofCounter_eq_ok`). So numbers made from different values are different, whatever
their series. Every value up to 999999 makes a number (`InvoiceNumber.exists_ofCounter`).
-/

namespace Billing

/-! ## The parts of a number -/

theorem isBlank_of_isCapital {c : Char} (h : isCapital c = true) : Text.isBlank c = false := by
  simp only [isCapital, Bool.and_eq_true, decide_eq_true_eq, Char.le_def,
    UInt32.le_iff_toNat_le] at h
  obtain ⟨hlower, hupper⟩ : 65 ≤ c.toNat ∧ c.toNat ≤ 90 := h
  simp only [Text.isBlank, Bool.or_eq_false_iff, Bool.and_eq_false_iff, decide_eq_false_iff_not,
    beq_eq_false_iff_ne, ne_eq]
  omega

/-- No hyphen is among the letters of a series. -/
theorem hyphen_notMem_of_isSeries {letters : List Char} (h : isSeries letters = true) :
    '-' ∉ letters := by
  intro hmem
  simp only [isSeries, Bool.and_eq_true, List.all_eq_true] at h
  exact absurd (h.2 _ hmem) (by decide)

/-- The hyphen behind letters other than it is the first one. -/
theorem span_hyphen {letters : List Char} (h : '-' ∉ letters) (sequence : List Char) :
    (letters ++ '-' :: sequence).span (· ≠ '-') = (letters, '-' :: sequence) := by
  have hletters : ∀ c ∈ letters, decide (c ≠ '-') = true := by
    intro c hc
    refine decide_eq_true ?_
    rintro rfl
    exact h hc
  rw [List.span_eq_takeWhile_dropWhile, List.takeWhile_append_of_pos hletters,
    List.dropWhile_append_of_pos hletters]
  simp

/-- A number is a series and a sequence with a hyphen between them. -/
theorem isInvoiceNumber_iff {s : String} : isInvoiceNumber s = true ↔
    ∃ letters digits, s.toList = letters ++ '-' :: digits ∧ isSeries letters = true ∧
      isSequence digits = true := by
  constructor
  · intro h
    have hsplit := List.takeWhile_append_dropWhile (p := (· ≠ '-')) (l := s.toList)
    rw [isInvoiceNumber, List.span_eq_takeWhile_dropWhile] at h
    split at h
    next letters c digits hspan =>
      obtain ⟨htake, hdrop⟩ := Prod.mk.inj hspan
      -- what stops the letters is a hyphen
      have hc : c = '-' := by
        have hhead := List.head?_dropWhile_not (fun c : Char => decide (c ≠ '-')) s.toList
        rw [hdrop] at hhead
        simpa using hhead
      rw [htake, hdrop, hc] at hsplit
      exact ⟨letters, digits, hsplit.symm, Bool.and_eq_true_iff.1 h⟩
    next => cases h
  · rintro ⟨letters, digits, hs, hletters, hdigits⟩
    rw [isInvoiceNumber, hs, span_hyphen (hyphen_notMem_of_isSeries hletters)]
    exact Bool.and_eq_true_iff.2 ⟨hletters, hdigits⟩

namespace InvoiceNumber

variable {s series : String} {n : Int} {number : InvoiceNumber}

/-- A number begins with a capital, so its text is not blank and is taken as the number. -/
theorem of_value (n : InvoiceNumber) : of (.text n.value) = .ok n := by
  obtain ⟨letters, digits, hvalue, hletters, -⟩ := isInvoiceNumber_iff.1 n.isInvoiceNumber
  simp only [isSeries, Bool.and_eq_true, decide_eq_true_eq] at hletters
  obtain ⟨c, cs, rfl⟩ := List.exists_cons_of_length_pos (by omega : 0 < letters.length)
  have hcapital := List.all_eq_true.1 hletters.2 c List.mem_cons_self
  have hblank : Text.isBlankText n.value = false :=
    Text.isBlankText_of_toList hvalue (isBlank_of_isCapital hcapital)
  obtain ⟨l, hl⟩ : ∃ l, Label.of? n.value = some l := by
    rw [Label.of?, dif_pos hblank]
    exact ⟨_, rfl⟩
  have hlabel : (Given.text n.value).toLabel "InvoiceNumber" = .ok l := by
    simp [Given.toLabel, Given.shown, hl]
  have hof : of? n.value = some n := dif_pos n.isInvoiceNumber
  simp [of, hlabel, hof]

/-- What is wrong with a number is said of that field. -/
theorem field?_of_of {g : Given} {e : Failure} (h : of g = .error e) :
    e.field? = some "InvoiceNumber" := by
  cases hlabel : g.toLabel "InvoiceNumber" with
  | error e' =>
      simp only [of, hlabel, Except.error_bind] at h
      obtain rfl := Except.error.inj h
      exact Given.field?_of_toLabel hlabel
  | ok l =>
      simp only [of, hlabel, Except.ok_bind] at h
      split at h
      · cases h
      · obtain rfl := Except.error.inj h
        rfl

/-- A text is only taken as the number that it is. -/
theorem value_of_of_text (h : of (.text s) = .ok number) : number.value = s := by
  obtain ⟨_, -, h⟩ := Except.bind_eq_ok_iff.1 h
  dsimp only at h
  cases hfound : of? s with
  | none =>
      rw [hfound] at h
      cases h
  | some n =>
      rw [hfound] at h
      obtain rfl := Except.ok.inj h
      unfold of? at hfound
      split at hfound
      next => exact congrArg value (Option.some.inj hfound).symm
      next => cases hfound

/-- The digits of a value with zeros in front, read as characters, are the value again. -/
theorem toNat_zeroFill (width n : Nat) :
    Digits.toNat ((Text.zeroFill width (Digits.chars n)).filterMap Text.asciiDigit?) = n := by
  rw [Digits.zeroFill_chars,
    Text.filterMap_asciiDigit? fun d hd => Digits.lt_ten_of_mem_filled hd, Digits.toNat_filled]

/-- A sign is no digit, so a value below zero has no sequence. -/
theorem nonneg_of_isSequence (h : isSequence (sequenceText n) = true) : 0 ≤ n := by
  by_contra hneg
  rw [sequenceText, if_pos (not_le.1 hneg), isSequence, List.all_cons] at h
  have hminus : Text.isAsciiDigit '-' = false := by decide
  simp [hminus] at h

/-- The parts of a number are read off its text. -/
theorem series_sequence_eq {letters digits : List Char} (hletters : isSeries letters = true)
    (h : number.value.toList = letters ++ '-' :: digits) :
    number.series = String.ofList letters ∧
      number.sequence = Digits.toNat (digits.filterMap Text.asciiDigit?) := by
  have hspan := span_hyphen (hyphen_notMem_of_isSeries hletters) digits
  rw [← h, List.span_eq_takeWhile_dropWhile] at hspan
  obtain ⟨htake, hdrop⟩ := Prod.mk.inj hspan
  have hhyphen : Text.asciiDigit? '-' = none := by decide
  rw [InvoiceNumber.series, htake, sequence, hdrop, List.filterMap_cons_none hhyphen]
  exact ⟨rfl, rfl⟩

/-- The number of a series at a value of the counter has that series and that value. -/
theorem ofCounter_eq_ok (hseries : isSeries series.toList = true)
    (h : ofCounter series n = .ok number) :
    number.series = series ∧ (number.sequence : Int) = n := by
  have htext : number.value.toList = series.toList ++ '-' :: sequenceText n := by
    rw [value_of_of_text h]
    simp
  have hnonneg : 0 ≤ n := by
    have hnumber := number.isInvoiceNumber
    rw [Billing.isInvoiceNumber, htext, span_hyphen (hyphen_notMem_of_isSeries hseries)] at hnumber
    exact nonneg_of_isSequence (Bool.and_eq_true_iff.1 hnumber).2
  obtain ⟨hletters, hsequence⟩ := series_sequence_eq hseries htext
  rw [hletters, hsequence, sequenceText, if_neg (not_lt.2 hnonneg), toNat_zeroFill]
  exact ⟨String.ofList_toList, Int.natAbs_of_nonneg hnonneg⟩

/-! ## The number of a value -/

/-- A series and a value of the counter, with zeros in front of it up to six digits. -/
def textOf (series : String) (value : Nat) : String :=
  series ++ "-" ++ String.ofList (Text.zeroFill 6 (Digits.chars value))

/-- Six digits are enough for it. -/
theorem isSequence_zeroFill {value : Nat} (h : value ≤ 999999) :
    isSequence (Text.zeroFill 6 (Digits.chars value)) = true := by
  have hcount : Digits.count value ≤ 6 := by
    rw [Digits.count_le_iff (by decide), tenTo_eq_pow]
    omega
  have hdigits : ∀ d ∈ Digits.filled 6 value,
      (Text.isAsciiDigit ∘ Text.digitChar) d = true :=
    fun d hd => Text.isAsciiDigit_digitChar (Digits.lt_ten_of_mem_filled hd)
  rw [isSequence, Digits.zeroFill_chars, List.length_map, Digits.length_filled, max_eq_left hcount,
    List.all_map, List.all_eq_true.2 hdigits]
  rfl

theorem isInvoiceNumber_textOf (hseries : isSeries series.toList = true) {value : Nat}
    (h : value ≤ 999999) : Billing.isInvoiceNumber (textOf series value) = true := by
  have htext : (textOf series value).toList =
      series.toList ++ '-' :: Text.zeroFill 6 (Digits.chars value) := by
    simp [textOf]
  exact isInvoiceNumber_iff.2 ⟨_, _, htext, hseries, isSequence_zeroFill h⟩

/-- As long as six digits are enough, a value of the counter makes a number. -/
theorem exists_ofCounter (hseries : isSeries series.toList = true) {value : Nat}
    (h : value ≤ 999999) :
    ∃ number, ofCounter series value = .ok number ∧ number.value = textOf series value := by
  let number : InvoiceNumber := ⟨textOf series value, isInvoiceNumber_textOf hseries h⟩
  exact ⟨number, number.of_value, rfl⟩

end InvoiceNumber

end Billing
