import Billing.Decimal.Text
import Billing.Proofs.Text.Digits

set_option autoImplicit false

/-! # Decimals are read back from their text

Every decimal in the range of exponents that can be read is read back from its text with its sign,
its trailing zeros and its exponent, and no other one is: `Numeral.ofText?_text_iff`.
-/

namespace Billing

namespace Decimal

variable {negative : Bool} {d : Decimal}

/-! ## Runs of digits -/

/-- A text that does not begin with a digit of any script. -/
def BeginsOther (cs : List Char) : Prop := ∀ c rest, cs = c :: rest → Text.digitValue? c = none

theorem beginsOther_nil : BeginsOther [] := nofun

theorem beginsOther_cons {c : Char} {cs : List Char} (h : Text.digitValue? c = none) :
    BeginsOther (c :: cs) := by
  rintro c' rest hc
  obtain ⟨rfl, -⟩ := List.cons.inj hc
  exact h

theorem digitRun_of_beginsOther {cs : List Char} (h : BeginsOther cs) : digitRun cs = ([], cs) := by
  cases cs with
  | nil => rfl
  | cons c cs => simp [digitRun, h c cs rfl]

theorem digitRun_map_append {ds : List Nat} {rest : List Char} (digits : ∀ d ∈ ds, d < 10)
    (hrest : BeginsOther rest) : digitRun (ds.map Text.digitChar ++ rest) = (ds, rest) := by
  induction ds with
  | nil => exact digitRun_of_beginsOther hrest
  | cons d ds ih =>
      -- the run goes on with every digit and stops at what follows
      have hd := Text.digitValue?_digitChar (digits d List.mem_cons_self)
      have hds := ih fun e he => digits e (List.mem_cons_of_mem _ he)
      simp [digitRun, hd, hds]

/-- The fraction of a number as written: nothing, or a point and digits. -/
def fractionChars (ds : List Nat) : List Char :=
  if ds = [] then [] else '.' :: ds.map Text.digitChar

theorem fractionRun_append {ds : List Nat} {rest : List Char} (digits : ∀ d ∈ ds, d < 10)
    (hrest : BeginsOther rest) (hpoint : ∀ cs, rest ≠ '.' :: cs) :
    fractionRun (fractionChars ds ++ rest) = (ds, rest) := by
  by_cases h : ds = []
  · subst h
    simp only [fractionChars, if_true, List.nil_append]
    unfold fractionRun
    split
    next cs => exact absurd rfl (hpoint cs)
    next => rfl
  · simp only [fractionChars, if_neg h, List.cons_append, fractionRun]
    exact digitRun_map_append digits hrest

/-- A number is read off its whole digits, its fraction and its exponent. -/
theorem readUnsigned?_append {whole fraction : List Nat} {rest : List Char} {e : Int}
    (hwhole : whole ≠ []) (digits : ∀ d ∈ whole ++ fraction, d < 10)
    (hrest : BeginsOther rest) (hpoint : ∀ cs, rest ≠ '.' :: cs)
    (hexp : readExponent? rest = some e)
    (hreadable : (⟨negative, Digits.toNat (whole ++ fraction), e - fraction.length⟩ :
      Decimal).readable = true) :
    readUnsigned? negative
        (whole.map Text.digitChar ++ (fractionChars fraction ++ rest)) =
      some ⟨negative, Digits.toNat (whole ++ fraction), e - fraction.length⟩ := by
  -- the whole digits stop at the point, or at what follows if there is no fraction
  have hother : BeginsOther (fractionChars fraction ++ rest) := by
    unfold fractionChars
    split
    · exact hrest
    · exact beginsOther_cons (by decide)
  have hrun := digitRun_map_append (fun d hd => digits d (List.mem_append_left _ hd)) hother
  have hfraction := fractionRun_append (fun d hd => digits d (List.mem_append_right _ hd)) hrest
    hpoint
  have hempty : (whole.isEmpty && fraction.isEmpty) = false := by
    simp [hwhole]
  simp only [readUnsigned?, hrun, hfraction, hempty, hexp]
  simp [hreadable]

/-! ## Both notations -/

/-- In plain notation the point stands before the last digits. -/
theorem withPoint_of_split {places n : Nat} {whole fraction : List Nat}
    (h : Digits.filled (places + 1) n = whole ++ fraction) (hlength : fraction.length = places) :
    withPoint places (Digits.chars n) = whole.map Text.digitChar ++
      if places = 0 then [] else '.' :: fraction.map Text.digitChar := by
  simp only [withPoint, Digits.zeroFill_chars, h]
  subst hlength
  cases fraction <;> simp

/-- Plain notation splits the digits at the point. -/
theorem withPoint_chars (places n : Nat) :
    ∃ whole fraction, whole ≠ [] ∧ fraction.length = places ∧
      (∀ d ∈ whole ++ fraction, d < 10) ∧ Digits.toNat (whole ++ fraction) = n ∧
      withPoint places (Digits.chars n) =
        whole.map Text.digitChar ++ fractionChars fraction := by
  obtain ⟨whole, fraction, hsplit, hwhole, hlength⟩ := Digits.exists_filled_eq_append places n
  refine ⟨whole, fraction, hwhole, hlength, ?_, ?_, ?_⟩
  · rw [← hsplit]
    exact fun d hd => Digits.lt_ten_of_mem_filled hd
  · rw [← hsplit, Digits.toNat_filled]
  · rw [withPoint_of_split hsplit hlength, fractionChars]
    by_cases hplaces : places = 0
    · rw [if_pos hplaces, if_pos (List.length_eq_zero_iff.1 (hlength.trans hplaces))]
    · rw [if_neg hplaces, if_neg fun hnil => hplaces (by rw [← hlength, hnil]; rfl)]

theorem readExponent?_exponentText (e : Int) : readExponent? ('E' :: exponentText e) = some e := by
  have hrun : digitRun (Digits.chars e.natAbs) = (Digits.ofNat e.natAbs, []) := by
    have hdigits : ∀ d ∈ Digits.ofNat e.natAbs, d < 10 := fun d hd => Digits.lt_ten_of_mem_ofNat hd
    have hall := digitRun_map_append hdigits beginsOther_nil
    simpa [Digits.chars] using hall
  obtain ⟨d, ds, hds⟩ := List.exists_cons_of_ne_nil (Digits.ofNat_ne_nil e.natAbs)
  have hvalue : Digits.toNat (d :: ds) = e.natAbs := by
    rw [← hds, Digits.toNat_ofNat]
  by_cases hneg : e < 0
  · have habs : (e.natAbs : Int) = -e := by omega
    simp only [exponentText, hneg, if_true, readExponent?, signRun, hrun, hds, hvalue, habs]
    simp
  · have habs : (e.natAbs : Int) = e := by omega
    simp only [exponentText, hneg, if_false, readExponent?, signRun, hrun, hds, hvalue, habs]
    simp

theorem signRun_signChars (negative : Bool) {d : Nat} (cs : List Char) (h : d < 10) :
    signRun (signChars negative ++ Text.digitChar d :: cs) =
      (negative, Text.digitChar d :: cs) := by
  cases negative with
  | true => rfl
  | false =>
      -- none of the ten digits is a sign
      match d, h with
      | 0, _ | 1, _ | 2, _ | 3, _ | 4, _ | 5, _ | 6, _ | 7, _ | 8, _ | 9, _ => rfl

/-- A decimal in the readable range is read back from its text. -/
theorem read?_chars (h : d.readable = true) : read? d.chars = some d := by
  obtain ⟨negative, coefficient, exponent⟩ := d
  -- what remains once the notation has been taken apart into digits and an exponent
  have finish (whole fraction : List Nat) (rest : List Char) {e : Int} (hwhole : whole ≠ [])
      (digits : ∀ d ∈ whole ++ fraction, d < 10) (hrest : BeginsOther rest)
      (hpoint : ∀ cs, rest ≠ '.' :: cs) (hexp : readExponent? rest = some e)
      (hcoefficient : Digits.toNat (whole ++ fraction) = coefficient)
      (hexponent : e - fraction.length = exponent) :
      read? (signChars negative ++
        (whole.map Text.digitChar ++ (fractionChars fraction ++ rest))) =
        some ⟨negative, coefficient, exponent⟩ := by
    have hreadable : (⟨negative, Digits.toNat (whole ++ fraction), e - fraction.length⟩ :
        Decimal).readable = true := by
      rw [hcoefficient, hexponent]
      exact h
    have hread := readUnsigned?_append hwhole digits hrest hpoint hexp hreadable
    rw [hcoefficient, hexponent] at hread
    cases whole with
    | nil => exact absurd rfl hwhole
    | cons w ws =>
        have hsign := signRun_signChars negative
          (ws.map Text.digitChar ++ (fractionChars fraction ++ rest))
          (digits w List.mem_cons_self)
        rw [List.map_cons, List.cons_append] at hread ⊢
        rw [read?, hsign]
        exact hread
  unfold chars
  dsimp only
  by_cases hplain : exponent ≤ 0 ∧ -6 ≤ (⟨negative, coefficient, exponent⟩ : Decimal).adjusted
  · rw [if_pos hplain]
    obtain ⟨whole, fraction, hwhole, hlength, digits, hvalue, htext⟩ :=
      withPoint_chars exponent.natAbs coefficient
    have hread := finish whole fraction [] hwhole digits beginsOther_nil (by simp) rfl hvalue
      (by rw [hlength]; omega)
    rw [htext]
    simpa using hread
  · rw [if_neg hplain]
    obtain ⟨w, ws, hws⟩ := List.exists_cons_of_ne_nil (Digits.ofNat_ne_nil coefficient)
    have hchars : Digits.chars coefficient = Text.digitChar w :: ws.map Text.digitChar := by
      rw [Digits.chars, hws, List.map_cons]
    have hcount : Digits.count coefficient = ws.length + 1 := by
      rw [← Digits.length_ofNat, hws, List.length_cons]
    have hread := finish [w] ws
      ('E' :: exponentText (⟨negative, coefficient, exponent⟩ : Decimal).adjusted)
      (by simp)
      (by
        rw [List.singleton_append, ← hws]
        exact fun d hd => Digits.lt_ten_of_mem_ofNat hd)
      (beginsOther_cons (by decide)) (by simp) (readExponent?_exponentText _)
      (by rw [List.singleton_append, ← hws, Digits.toNat_ofNat])
      (by
        simp only [adjusted, digits, hcount]
        push_cast
        ring)
    have hfraction : (if (Text.digitChar w :: ws.map Text.digitChar).length = 1 then []
        else '.' :: ws.map Text.digitChar) = fractionChars ws := by
      cases ws <;> simp [fractionChars]
    rw [hchars]
    simp only [List.take_succ_cons, List.take_zero, List.drop_succ_cons, List.drop_zero, hfraction]
    simpa using hread

/-- Nothing is read that lies outside the range. -/
theorem readable_of_read? {cs : List Char} (h : read? cs = some d) : d.readable = true := by
  simp only [read?, readUnsigned?] at h
  split at h
  next => cases h
  next =>
    obtain ⟨e, -, h⟩ := Option.bind_eq_some_iff.1 h
    split at h
    next hreadable =>
      obtain rfl := Option.some.inj h
      exact hreadable
    next => cases h

/-! ## The characters of a decimal -/

/-- The characters that decimals are written with. -/
def alphabet : List Char :=
  ['0', '1', '2', '3', '4', '5', '6', '7', '8', '9', '.', 'E', '+', '-']

theorem digitChar_mem_alphabet (n : Nat) : Text.digitChar n ∈ alphabet := by
  unfold Text.digitChar
  split <;> decide

theorem mem_alphabet_of_mem_digits {ds : List Nat} {c : Char} (h : c ∈ ds.map Text.digitChar) :
    c ∈ alphabet := by
  obtain ⟨n, -, rfl⟩ := List.mem_map.1 h
  exact digitChar_mem_alphabet n

theorem mem_alphabet_of_mem_fractionChars {ds : List Nat} {c : Char}
    (h : c ∈ fractionChars ds) : c ∈ alphabet := by
  unfold fractionChars at h
  split at h
  · cases h
  · rcases List.mem_cons.1 h with rfl | h
    · decide
    · exact mem_alphabet_of_mem_digits h

theorem mem_alphabet_of_mem_exponentText {e : Int} {c : Char} (h : c ∈ exponentText e) :
    c ∈ alphabet := by
  unfold exponentText at h
  rcases List.mem_cons.1 h with rfl | h
  · split <;> decide
  · exact mem_alphabet_of_mem_digits h

theorem mem_alphabet_of_mem_chars {c : Char} (h : c ∈ d.chars) : c ∈ alphabet := by
  unfold chars at h
  dsimp only at h
  rcases List.mem_append.1 h with hsign | h
  · cases hnegative : d.negative <;> simp [signChars, hnegative] at hsign
    subst hsign
    decide
  · split at h
    next =>
      obtain ⟨whole, fraction, -, -, -, -, htext⟩ :=
        withPoint_chars d.exponent.natAbs d.coefficient
      rw [htext] at h
      exact (List.mem_append.1 h).elim mem_alphabet_of_mem_digits mem_alphabet_of_mem_fractionChars
    next =>
      rcases List.mem_append.1 h with h | h
      · rcases List.mem_append.1 h with h | h
        · exact mem_alphabet_of_mem_digits (List.mem_of_mem_take h)
        · split at h
          · cases h
          · rcases List.mem_cons.1 h with rfl | h
            · decide
            · exact mem_alphabet_of_mem_digits (List.mem_of_mem_drop h)
      · rcases List.mem_cons.1 h with rfl | h
        · decide
        · exact mem_alphabet_of_mem_exponentText h

/-- None of the characters is passed over in reading. -/
theorem trim_filter_of_alphabet {cs : List Char} (h : ∀ c ∈ cs, c ∈ alphabet) :
    (Text.trim cs).filter (· ≠ '_') = cs := by
  have hblank : ∀ c ∈ alphabet, Text.isBlank c = false ∧ c ≠ '_' := by
    have hall : alphabet.all (fun c => !Text.isBlank c && c != '_') = true := by decide
    simpa using hall
  -- from either end, the first character is not blank
  have htrim : ∀ cs : List Char, (∀ c ∈ cs, c ∈ alphabet) → Text.trimStart cs = cs := by
    intro cs hcs
    cases cs with
    | nil => rfl
    | cons c cs => exact Text.trimStart_of_head (hblank c (hcs c List.mem_cons_self)).1
  rw [Text.trim, htrim cs h, Text.trimEnd, htrim cs.reverse (by simpa using h),
    List.reverse_reverse, List.filter_eq_self]
  intro c hc
  simpa using (hblank c (h c hc)).2

end Decimal

namespace Numeral

variable {d : Decimal} {s : String}

/-- A decimal in the readable range is read back from its text. -/
theorem ofText?_text (h : d.readable = true) : ofText? d.text = some (.finite d) := by
  have hclean := Decimal.trim_filter_of_alphabet fun c =>
    Decimal.mem_alphabet_of_mem_chars (d := d) (c := c)
  simp only [ofText?, Decimal.text, String.toList_ofList, hclean, Decimal.read?_chars h]

/-- The words stand for no decimal. -/
theorem readWord?_ne_finite (negative : Bool) (cs : List Char) :
    readWord? negative cs ≠ some (.finite d) := by
  unfold readWord?
  split <;> simp

theorem readable_of_ofText? (h : ofText? s = some (.finite d)) : d.readable = true := by
  unfold ofText? at h
  dsimp only at h
  split at h
  next hread =>
    obtain rfl := finite.inj (Option.some.inj h)
    exact Decimal.readable_of_read? hread
  next => exact absurd h (readWord?_ne_finite _ _)

/-- It is no other decimals that are read back. -/
theorem ofText?_text_iff : ofText? d.text = some (.finite d) ↔ d.readable = true :=
  ⟨readable_of_ofText?, ofText?_text⟩

end Numeral

end Billing
