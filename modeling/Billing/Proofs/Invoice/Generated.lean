import Billing.Proofs.Invoice.Number
import Billing.Proofs.Settings.Reading

set_option autoImplicit false

/-! # Numbers that are generated

A text is split into a series and a sequence in one way only (`InvoiceNumber.split_unique`). So
`InvoiceNumber.exists_ofCounter_iff` says for any text and any integer whether they make a number. A
list of calls on one counter (`InvoiceNumber.generateAll`) uses up one value with each call, whether
it makes a number or not. What these come to for the numbers themselves is said in
`InvoiceNumber.generated_decodable`.
-/

namespace Billing

/-! ## Series -/

/-- Two to four of the letters from `A` to `Z`. -/
def SeriesLetters (s : String) : Prop :=
  2 ≤ s.length ∧ s.length ≤ 4 ∧ ∀ c ∈ s.toList, 'A' ≤ c ∧ c ≤ 'Z'

theorem seriesLetters_iff {s : String} : SeriesLetters s ↔ isSeries s.toList = true := by
  simp [SeriesLetters, isSeries, isCapital, and_assoc, String.length_toList]

instance (s : String) : Decidable (SeriesLetters s) := decidable_of_iff' _ seriesLetters_iff

theorem isAsciiDigit_of_isCapital {c : Char} (h : isCapital c = true) :
    Text.isAsciiDigit c = false := by
  simp only [isCapital, Bool.and_eq_true, decide_eq_true_eq] at h
  have hlarge : ¬ c ≤ '9' := fun hc => absurd (Char.le_trans h.1 hc) (by decide)
  simp [Text.isAsciiDigit, Text.asciiDigit?, hlarge]

namespace InvoiceNumber

variable {p : String} {n : Int} {number : InvoiceNumber} {letters digits cs ds : List Char}

theorem isAsciiDigit_of_isSequence (h : isSequence digits = true) :
    ∀ c ∈ digits, Text.isAsciiDigit c = true := by
  simp only [isSequence, Bool.and_eq_true, List.all_eq_true] at h
  exact h.2

theorem hyphen_notMem_of_isSequence (h : isSequence digits = true) : '-' ∉ digits := fun hmem =>
  absurd (isAsciiDigit_of_isSequence h _ hmem) (by decide)

/-- A text with one hyphen is split there in one way only. -/
theorem split_unique (hletters : '-' ∉ letters) (hdigits : '-' ∉ digits)
    (h : cs ++ '-' :: ds = letters ++ '-' :: digits) : cs = letters ∧ ds = digits := by
  rcases List.append_eq_append_iff.1 h with ⟨between, hleft, hright⟩ | ⟨between, hleft, hright⟩
  · cases between with
    | nil => simp_all
    | cons c between =>
        -- another hyphen would be among the letters
        obtain ⟨rfl, -⟩ := List.cons.inj hright
        simp [hleft] at hletters
  · cases between with
    | nil => simp_all
    | cons c between =>
        obtain ⟨-, hrest⟩ := List.cons.inj hright
        simp [hrest] at hdigits

/-! ## When a value makes a number -/

theorem isSequence_sequenceText_iff :
    isSequence (sequenceText n) = true ↔ 0 ≤ n ∧ n ≤ 999999 := by
  constructor
  · intro h
    have hnonneg := nonneg_of_isSequence h
    refine ⟨hnonneg, ?_⟩
    rw [sequenceText, if_neg (not_lt.2 hnonneg), isSequence, Digits.zeroFill_chars,
      List.length_map, Digits.length_filled] at h
    simp only [Bool.and_eq_true, decide_eq_true_eq] at h
    have hlt := (Digits.count_le_iff (n := n.natAbs) (k := 6) (by decide)).1 (by omega)
    rw [tenTo_eq_pow] at hlt
    omega
  · rintro ⟨hnonneg, hle⟩
    rw [sequenceText, if_neg (not_lt.2 hnonneg)]
    exact isSequence_zeroFill (by omega)

theorem ofCounter_eq_ok_iff :
    ofCounter p n = .ok number ↔ number.value = p ++ "-" ++ String.ofList (sequenceText n) :=
  ⟨value_of_of_text, fun h => by rw [ofCounter, ← h, number.of_value]⟩

/-- A text and an integer make a number exactly if the text is a series and six digits are enough
for the integer. -/
theorem exists_ofCounter_iff :
    (∃ number, ofCounter p n = .ok number) ↔ SeriesLetters p ∧ 0 ≤ n ∧ n ≤ 999999 := by
  have htext : (p ++ "-" ++ String.ofList (sequenceText n)).toList =
      p.toList ++ '-' :: sequenceText n := by simp
  rw [seriesLetters_iff, ← isSequence_sequenceText_iff]
  constructor
  · rintro ⟨number, h⟩
    obtain ⟨letters, digits, hsplit, hletters, hdigits⟩ :=
      isInvoiceNumber_iff.1 number.isInvoiceNumber
    rw [ofCounter_eq_ok_iff.1 h, htext] at hsplit
    obtain ⟨rfl, rfl⟩ := split_unique (hyphen_notMem_of_isSeries hletters)
      (hyphen_notMem_of_isSequence hdigits) hsplit
    exact ⟨hletters, hdigits⟩
  · rintro ⟨hletters, hdigits⟩
    exact ⟨⟨_, isInvoiceNumber_iff.2 ⟨_, _, htext, hletters, hdigits⟩⟩, ofCounter_eq_ok_iff.2 rfl⟩

theorem series_sequence_of_ofCounter (h : ofCounter p n = .ok number) :
    number.series = p ∧ (number.sequence : Int) = n :=
  ofCounter_eq_ok (seriesLetters_iff.1 (exists_ofCounter_iff.1 ⟨number, h⟩).1) h

/-! ## Numbers of six digits -/

/-- A number is split into its series and as many digits as there are in it. -/
theorem exists_digits (number : InvoiceNumber) :
    ∃ ds : List Nat, (∀ d ∈ ds, d < 10) ∧ ds.length = number.value.toList.countP Text.isAsciiDigit ∧
      number.value.toList = number.series.toList ++ '-' :: ds.map Text.digitChar ∧
      number.sequence = Digits.toNat ds := by
  obtain ⟨letters, digits, hvalue, hletters, hdigits⟩ :=
    isInvoiceNumber_iff.1 number.isInvoiceNumber
  obtain ⟨hseries, hsequence⟩ := series_sequence_eq hletters hvalue
  obtain ⟨ds, hds, rfl⟩ := Text.exists_map_digitChar (isAsciiDigit_of_isSequence hdigits)
  refine ⟨ds, hds, ?_, ?_, ?_⟩
  · -- there are no digits but those behind the hyphen
    have hcapitals : letters.countP Text.isAsciiDigit = 0 := by
      rw [List.countP_eq_zero]
      intro c hc
      simp only [isSeries, Bool.and_eq_true, List.all_eq_true] at hletters
      exact Bool.not_eq_true _ ▸ isAsciiDigit_of_isCapital (hletters.2 c hc)
    have hall : (ds.map Text.digitChar).countP Text.isAsciiDigit = (ds.map Text.digitChar).length :=
      List.countP_eq_length.2 (isAsciiDigit_of_isSequence hdigits)
    have hhyphen : ¬ Text.isAsciiDigit '-' = true := by decide
    rw [hvalue, List.countP_append, hcapitals, List.countP_cons_of_neg hhyphen, hall,
      List.length_map, Nat.zero_add]
  · rw [hseries, String.toList_ofList, hvalue]
  · rw [hsequence, Text.filterMap_asciiDigit? hds]

/-- A number of six digits is what its series and its sequence make. -/
theorem ofCounter_series_sequence (h : number.value.toList.countP Text.isAsciiDigit = 6) :
    ofCounter number.series number.sequence = .ok number := by
  obtain ⟨ds, hds, hlength, hvalue, hsequence⟩ := number.exists_digits
  have hne : ds ≠ [] := List.ne_nil_of_length_pos (by omega)
  have hfilled := Digits.filled_toNat hds hne
  rw [hlength, h] at hfilled
  have htext : sequenceText number.sequence = ds.map Text.digitChar := by
    rw [sequenceText, if_neg (by omega), Int.natAbs_natCast, hsequence, Digits.zeroFill_chars,
      hfilled]
  rw [ofCounter_eq_ok_iff, ← String.toList_inj, hvalue, htext]
  simp

/-! ## Many calls on one counter -/

/-- What calls give, one for each text, on one counter; and the counter behind them. -/
def generateAll : List String → Counter → List (Except Failure InvoiceNumber) × Counter
  | [], c => ([], c)
  | p :: ps, c =>
      let (result, c) := generate p c
      let (results, c) := generateAll ps c
      (result :: results, c)

/-- The numbers among the results of calls. -/
def numbersOf (results : List (Except Failure InvoiceNumber)) : List InvoiceNumber :=
  results.filterMap Except.toOption

variable {c : Counter} {ps : List String}

theorem result_of_generate (p : String) (c : Counter) :
    (generate p c).1 = ofCounter p c.next := rfl

/-- A call uses up one value, whatever comes of it. -/
theorem next_of_generate (p : String) (c : Counter) : (generate p c).2.next = c.next + 1 := rfl

theorem sequence_of_generate (h : (generate p c).1 = .ok number) :
    (number.sequence : Int) = c.next := by
  rw [result_of_generate] at h
  exact (series_sequence_of_ofCounter h).2

theorem generateAll_cons (p : String) (ps : List String) (c : Counter) :
    generateAll (p :: ps) c =
      ((generate p c).1 :: (generateAll ps (generate p c).2).1,
        (generateAll ps (generate p c).2).2) := rfl

/-- As many values are used up as there have been calls. -/
theorem next_of_generateAll (ps : List String) (c : Counter) :
    (generateAll ps c).2.next = c.next + ps.length := by
  induction ps generalizing c with
  | nil => simp [generateAll]
  | cons p ps ih =>
      rw [generateAll_cons, ih, next_of_generate, List.length_cons]
      omega

/-- The results of the first calls do not depend on the others. -/
theorem getElem?_generateAll {i : Nat} (h : ps[i]? = some p) :
    (generateAll ps c).1[i]? = some (generate p (generateAll (ps.take i) c).2).1 := by
  induction ps generalizing c i with
  | nil => simp at h
  | cons q ps ih =>
      cases i with
      | zero =>
          obtain rfl : q = p := by simpa using h
          rfl
      | succ i =>
          rw [List.take_succ_cons, generateAll_cons, generateAll_cons, List.getElem?_cons_succ]
          exact ih h

/-- All numbers come from values that the counter has not handed out before. -/
theorem le_sequence_of_mem (h : number ∈ numbersOf (generateAll ps c).1) :
    c.next ≤ number.sequence := by
  induction ps generalizing c with
  | nil => simp [generateAll, numbersOf] at h
  | cons p ps ih =>
      rw [generateAll_cons, numbersOf, List.filterMap_cons] at h
      have hrest (hmem : number ∈ numbersOf (generateAll ps (generate p c).2).1) :
          c.next ≤ number.sequence := by
        have hle := ih hmem
        rw [next_of_generate] at hle
        omega
      cases hresult : (generate p c).1 with
      | error e =>
          rw [hresult] at h
          exact hrest h
      | ok first =>
          rw [hresult] at h
          rcases List.mem_cons.1 h with rfl | hmem
          · exact (sequence_of_generate hresult).ge
          · exact hrest hmem

theorem pairwise_generateAll (ps : List String) (c : Counter) :
    (numbersOf (generateAll ps c).1).Pairwise fun m n => m.sequence < n.sequence := by
  induction ps generalizing c with
  | nil => exact .nil
  | cons p ps ih =>
      rw [generateAll_cons, numbersOf, List.filterMap_cons]
      cases hresult : (generate p c).1 with
      | error e => exact ih _
      | ok first =>
          refine List.pairwise_cons.2 ⟨fun n hn => ?_, ih _⟩
          -- what is handed out later is larger
          have hle := le_sequence_of_mem hn
          rw [next_of_generate] at hle
          have hfirst := sequence_of_generate hresult
          omega

/-- Numbers that are generated are well formed, decodable and different. A text and an integer make
a number exactly if the text is a series and the integer has at most six digits and no sign, and the
number has that series and that sequence. The series in settings are series, and those that are
given are taken as they are. A number of six digits is generated from its series and its sequence.
And of any calls on one counter, each draws the next value, and the numbers that are returned are
all different, with growing sequences. -/
theorem generated_decodable :
    (∀ (p : String) (n : Int),
      ((∃ number, (generate p ⟨n⟩).1 = .ok number) ↔ SeriesLetters p ∧ 0 ≤ n ∧ n ≤ 999999) ∧
      ∀ number, (generate p ⟨n⟩).1 = .ok number →
        number.series = p ∧ (number.sequence : Int) = n) ∧
    (∀ environment given settings, Settings.read environment given = .ok settings →
      (∀ v, Json.lookup? "invoice_number_prefix" (Settings.allGiven environment given) = some v →
        v = .str settings.invoiceSeries.letters) ∧
      (∀ v, Json.lookup? "proration_number_prefix" (Settings.allGiven environment given) = some v →
        v = .str settings.prorationSeries.letters) ∧
      SeriesLetters settings.invoiceSeries.letters ∧
      SeriesLetters settings.prorationSeries.letters) ∧
    (∀ number : InvoiceNumber, number.value.toList.countP Text.isAsciiDigit = 6 →
      (generate number.series ⟨number.sequence⟩).1 = .ok number) ∧
    ∀ (seed : Int) (ps : List String),
      (∀ i p, ps[i]? = some p →
        (generateAll (ps.take i) ⟨seed⟩).2.draw.1 = seed + i ∧
          (generateAll ps ⟨seed⟩).1[i]? = some (generate p ⟨seed + i⟩).1) ∧
      (numbersOf (generateAll ps ⟨seed⟩).1).Pairwise fun m n =>
        m ≠ n ∧ m.sequence < n.sequence := by
  simp only [result_of_generate]
  refine ⟨fun p n => ⟨exists_ofCounter_iff, fun number h => series_sequence_of_ofCounter h⟩,
    fun environment given settings h => ?_, fun number h => ofCounter_series_sequence h,
    fun seed ps => ⟨fun i p h => ?_, ?_⟩⟩
  · obtain ⟨-, hinvoices, hprorations, -⟩ :=
      Settings.ofMembers_eq_ok_iff.1 (Settings.ofMembers_of_read h)
    exact ⟨fun v hv => Settings.eq_str_of_given hv hinvoices,
      fun v hv => Settings.eq_str_of_given hv hprorations,
      seriesLetters_iff.2 settings.invoiceSeries.isSeries,
      seriesLetters_iff.2 settings.prorationSeries.isSeries⟩
  · have hlt : i < ps.length := (List.getElem?_eq_some_iff.1 h).1
    have hnext : (generateAll (ps.take i) ⟨seed⟩).2.next = seed + i := by
      rw [next_of_generateAll, List.length_take, min_eq_left hlt.le]
    refine ⟨hnext, ?_⟩
    rw [getElem?_generateAll h, result_of_generate, hnext]
  · refine (pairwise_generateAll ps ⟨seed⟩).imp fun h => ⟨?_, h⟩
    rintro rfl
    exact lt_irrefl _ h

/-- Settings in which invoices have a series of their own. -/
def sampleSettings : Settings where
  address := ⟨"postgresql", "localhost", []⟩
  invoiceSeries := ⟨"ACME", by decide⟩
  prorationSeries := .prorations
  attempts := .five
  logLevel := .info
  debug := false

/-- Three calls at the end of the six digits. The second one fails, since its text is no series, and
uses up a value like the others; so the third one has too many digits. -/
theorem generated_decodable_sample :
    Settings.read [("Invoicing_Invoice_Number_Prefix", "ACME")]
        [("database_url", .str "postgresql://localhost/billing")] = .ok sampleSettings ∧
      SeriesLetters sampleSettings.invoiceSeries.letters ∧
      (∃ number, (generate "ACME" ⟨999998⟩).1 = .ok number ∧ number.series = "ACME" ∧
        (number.sequence : Int) = 999998 ∧
        (numbersOf (generateAll ["ACME", "A-B", "ACME"] ⟨999998⟩).1).Pairwise fun m n =>
          m ≠ n ∧ m.sequence < n.sequence) ∧
      (generateAll ["ACME", "A-B", "ACME"] ⟨999998⟩).1[2]? = some (generate "ACME" ⟨1000000⟩).1 ∧
      ¬ ∃ number, (generate "ACME" ⟨1000000⟩).1 = .ok number := by
  obtain ⟨hgenerate, hsettings, -, hcalls⟩ := generated_decodable
  have hread : Settings.read [("Invoicing_Invoice_Number_Prefix", "ACME")]
      [("database_url", .str "postgresql://localhost/billing")] = .ok sampleSettings := by
    decide +kernel
  obtain ⟨-, -, hletters, -⟩ := hsettings _ _ _ hread
  obtain ⟨number, hnumber⟩ := (hgenerate "ACME" 999998).1.2 ⟨by decide +kernel, by decide⟩
  obtain ⟨hseries, hsequence⟩ := (hgenerate "ACME" 999998).2 number hnumber
  obtain ⟨hresults, hpairwise⟩ := hcalls 999998 ["ACME", "A-B", "ACME"]
  exact ⟨hread, hletters, ⟨number, hnumber, hseries, hsequence, hpairwise⟩,
    (hresults 2 "ACME" rfl).2, fun h => absurd ((hgenerate "ACME" 1000000).1.1 h).2.2 (by decide)⟩

end InvoiceNumber

end Billing
