import Billing.Calendar.Date
import Billing.Proofs.Decimal.Digits

set_option autoImplicit false

/-! # Reading the digits that have been written

A number is written with its digits, possibly with zeros in front (`Digits.filled`). Read in a text
that goes on with something else than a digit, they are all there is
(`Date.takeNumber?_zeroFill`), and the number is the one that was written (`Digits.toNat_filled`).
The other way round, digits that are read are the ones the number is written with
(`Digits.filled_toNat`).
-/

namespace Billing

namespace Text

theorem asciiDigit?_eq_some {c : Char} {d : Nat} (h : asciiDigit? c = some d) :
    d < 10 ∧ digitChar d = c := by
  unfold asciiDigit? at h
  split at h
  next hbounds =>
    obtain rfl := Option.some.inj h
    simp only [Char.le_def, UInt32.le_iff_toNat_le] at hbounds
    obtain ⟨hlower, hupper⟩ : 48 ≤ c.toNat ∧ c.toNat ≤ 57 := hbounds
    refine ⟨by omega, ?_⟩
    rw [← Char.ofNat_toNat c]
    generalize c.toNat = n at hlower hupper
    interval_cases n <;> rfl
  next => cases h

theorem isAsciiDigit_digitChar {d : Nat} (h : d < 10) : isAsciiDigit (digitChar d) = true := by
  rw [isAsciiDigit, asciiDigit?_digitChar h, Option.isSome_some]

theorem filterMap_asciiDigit? {ds : List Nat} (hds : ∀ d ∈ ds, d < 10) :
    (ds.map digitChar).filterMap asciiDigit? = ds := by
  have hsome : ∀ d ∈ ds, (asciiDigit? ∘ digitChar) d = some d :=
    fun d hd => asciiDigit?_digitChar (hds d hd)
  rw [List.filterMap_map, List.filterMap_congr hsome, List.filterMap_some]

/-- A text of the characters `0` to `9` is written with digits. -/
theorem exists_map_digitChar {cs : List Char} (h : ∀ c ∈ cs, isAsciiDigit c = true) :
    ∃ ds : List Nat, (∀ d ∈ ds, d < 10) ∧ cs = ds.map digitChar := by
  induction cs with
  | nil => exact ⟨[], by simp, rfl⟩
  | cons c cs ih =>
      obtain ⟨d, hd⟩ := Option.isSome_iff_exists.1 (h c List.mem_cons_self)
      obtain ⟨hlt, rfl⟩ := asciiDigit?_eq_some hd
      obtain ⟨ds, hds, rfl⟩ := ih fun c hc => h c (List.mem_cons_of_mem _ hc)
      exact ⟨d :: ds, List.forall_mem_cons.2 ⟨hlt, hds⟩, rfl⟩

end Text

namespace Digits

theorem ofNat_ne_nil (n : Nat) : ofNat n ≠ [] := by
  rw [ofNat]
  split <;> simp

theorem eq_zero_of_head?_ofNat {n : Nat} (h : (ofNat n).head? = some 0) : n = 0 := by
  fun_induction ofNat n with
  | case1 n hn => simpa using h
  | case2 n hn ih =>
      rw [List.head?_append_of_ne_nil _ (ofNat_ne_nil _)] at h
      have := ih h
      omega

/-- A number of several digits does not begin with a zero. -/
theorem ofNat_ne_zero_cons (n d : Nat) (ds : List Nat) : ofNat n ≠ 0 :: d :: ds := by
  intro h
  obtain rfl := eq_zero_of_head?_ofNat (n := n) (by rw [h]; rfl)
  rw [ofNat, if_pos (by decide)] at h
  cases h

/-- A number begins with one of its digits. -/
theorem exists_chars_eq_cons (n : Nat) :
    ∃ d < 10, ∃ cs, chars n = Text.digitChar d :: cs := by
  cases hds : ofNat n with
  | nil => exact absurd hds (ofNat_ne_nil n)
  | cons d ds =>
      have hd : d < 10 := lt_ten_of_mem_ofNat (hds ▸ List.mem_cons_self)
      exact ⟨d, hd, ds.map Text.digitChar, by rw [chars, hds, List.map_cons]⟩

/-- The characters of a whole number are those of its size, perhaps behind a minus sign. -/
theorem toList_intText (n : Int) :
    (intText n).toList = (if n < 0 then ['-'] else []) ++ chars n.natAbs := by
  cases n with
  | ofNat n => simp [intText, text]
  | negSucc n => simp [intText, text, Int.negSucc_lt_zero]

theorem toNat_append (ds es : List Nat) :
    toNat (ds ++ es) = toNat ds * tenTo es.length + toNat es := by
  induction es using List.reverseRecOn with
  | nil => simp [toNat, tenTo_zero]
  | append_singleton es e ih =>
      rw [← List.append_assoc, toNat_append_singleton, toNat_append_singleton, ih,
        List.length_append, List.length_singleton, tenTo_succ]
      ring

theorem toNat_replicate_zero (k : Nat) : toNat (List.replicate k 0) = 0 := by
  induction k with
  | zero => rfl
  | succ k ih => rw [List.replicate_succ', toNat_append_singleton, ih]

/-- The digits of a number with zeros in front, up to the given width. -/
def filled (width n : Nat) : List Nat := List.replicate (width - count n) 0 ++ ofNat n

theorem toNat_filled (width n : Nat) : toNat (filled width n) = n := by
  rw [filled, toNat_append, toNat_replicate_zero, toNat_ofNat, Nat.zero_mul, Nat.zero_add]

theorem length_filled (width n : Nat) : (filled width n).length = max width (count n) := by
  rw [filled, List.length_append, List.length_replicate, length_ofNat]
  omega

theorem lt_ten_of_mem_filled {width n d : Nat} (h : d ∈ filled width n) : d < 10 := by
  rcases List.mem_append.1 h with h | h
  · obtain rfl := List.eq_of_mem_replicate h
    decide
  · exact lt_ten_of_mem_ofNat h

theorem toNat_lt {ds : List Nat} (hds : ∀ d ∈ ds, d < 10) : toNat ds < tenTo ds.length := by
  induction ds using List.reverseRecOn with
  | nil => decide
  | append_singleton ds d ih =>
      have hd : d < 10 := hds d (by simp)
      have hrest := ih fun e he => hds e (List.mem_append_left _ he)
      rw [toNat_append_singleton, List.length_append, List.length_singleton, tenTo_succ]
      omega

/-- Equally many digits that stand for the same number are the same. -/
theorem toNat_inj {ds es : List Nat} (hds : ∀ d ∈ ds, d < 10) (hes : ∀ e ∈ es, e < 10)
    (hlength : ds.length = es.length) (h : toNat ds = toNat es) : ds = es := by
  induction ds using List.reverseRecOn generalizing es with
  | nil => exact (List.length_eq_zero_iff.1 hlength.symm).symm
  | append_singleton ds d ih =>
      obtain rfl | ⟨es, e, rfl⟩ := List.eq_nil_or_concat es
      · simp at hlength
      have hd : d < 10 := hds d (by simp)
      have he : e < 10 := hes e (by simp)
      -- the last digit is the rest by ten, the others are the quotient
      rw [List.concat_eq_append] at *
      rw [toNat_append_singleton, toNat_append_singleton] at h
      have hrest := ih (fun d hd => hds d (List.mem_append_left _ hd))
        (fun e he => hes e (List.mem_append_left _ he)) (by simpa using hlength) (by omega)
      have hlast : d = e := by omega
      rw [hrest, hlast]

/-- Digits are those of the number they stand for, with zeros in front up to their width. -/
theorem filled_toNat {ds : List Nat} (hds : ∀ d ∈ ds, d < 10) (hne : ds ≠ []) :
    filled ds.length (toNat ds) = ds := by
  have hcount : count (toNat ds) ≤ ds.length :=
    (count_le_iff (List.length_pos_of_ne_nil hne)).2 (toNat_lt hds)
  refine toNat_inj (fun d hd => lt_ten_of_mem_filled hd) hds ?_ (toNat_filled _ _)
  rw [length_filled]
  omega

/-- With zeros in front, there is a digit before the last ones. -/
theorem exists_filled_eq_append (places n : Nat) :
    ∃ whole fraction, filled (places + 1) n = whole ++ fraction ∧ whole ≠ [] ∧
      fraction.length = places := by
  obtain ⟨ds, hds⟩ : ∃ ds, ds = filled (places + 1) n := ⟨_, rfl⟩
  have hlength : places < ds.length := by
    rw [hds, length_filled]
    omega
  rw [← hds]
  refine ⟨ds.take (ds.length - places), ds.drop (ds.length - places),
    (List.take_append_drop _ _).symm, fun hnil => ?_, ?_⟩
  · have := congrArg List.length hnil
    simp only [List.length_take, List.length_nil] at this
    omega
  · rw [List.length_drop]
    omega

/-- There are no more zeros in front than are needed for that. -/
theorem eq_of_head?_filled {places n : Nat} {whole fraction : List Nat}
    (h : filled (places + 1) n = whole ++ fraction) (hlength : fraction.length = places)
    (hhead : whole.head? = some 0) : whole = [0] := by
  obtain ⟨ws, rfl⟩ : ∃ ws, whole = 0 :: ws := by
    cases whole with
    | nil => cases hhead
    | cons w ws => exact ⟨ws, by rw [Option.some.inj hhead]⟩
  -- a number with as many digits as that begins with none of the zeros
  have hcount : count n ≤ places + 1 := by
    by_contra hlong
    have hzero : places + 1 - count n = 0 := by omega
    rw [filled, hzero, List.replicate_zero, List.nil_append] at h
    obtain rfl := eq_zero_of_head?_ofNat (n := n) (by rw [h]; rfl)
    rw [count_of_lt_ten (by decide)] at hlong
    omega
  have htotal := congrArg List.length h
  rw [length_filled, List.length_append, List.length_cons, hlength] at htotal
  have hempty : ws = [] := List.length_eq_zero_iff.1 (by omega)
  rw [hempty]

theorem zeroFill_chars (width n : Nat) :
    Text.zeroFill width (chars n) = (filled width n).map Text.digitChar := by
  rw [Text.zeroFill, filled, chars, List.map_append, List.length_map, length_ofNat,
    List.map_replicate]
  rfl

end Digits

namespace Date

theorem takeDigits?_map_append {ds : List Nat} (rest : List Char) (digits : ∀ d ∈ ds, d < 10) :
    takeDigits? ds.length (ds.map Text.digitChar ++ rest) = some (ds, rest) := by
  induction ds with
  | nil => rfl
  | cons d ds ih =>
      have hd := Text.asciiDigit?_digitChar (digits d List.mem_cons_self)
      have hds := ih fun e he => digits e (List.mem_cons_of_mem _ he)
      simp [takeDigits?, hd, hds]

/-- A number of the right width is read off the front of a text. -/
theorem takeNumber?_zeroFill {width n : Nat} (rest : List Char) (hwidth : 0 < width)
    (h : n < tenTo width) :
    takeNumber? width (Text.zeroFill width (Digits.chars n) ++ rest) = some (n, rest) := by
  have hlength : (Digits.filled width n).length = width := by
    rw [Digits.length_filled, max_eq_left ((Digits.count_le_iff hwidth).2 h)]
  have hdigits : ∀ d ∈ Digits.filled width n, d < 10 := fun d hd => Digits.lt_ten_of_mem_filled hd
  have htake := takeDigits?_map_append rest hdigits
  rw [hlength] at htake
  rw [takeNumber?, Digits.zeroFill_chars, htake, Option.map_some, Digits.toNat_filled]

end Date

end Billing
