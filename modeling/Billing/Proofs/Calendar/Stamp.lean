import Billing.Json.Scalar
import Billing.Proofs.Text.Digits

set_option autoImplicit false

/-! # Dates and moments are read back from what is stored

A date is read back from its text as it is (`Json.date_text`). A moment is read back from its stamp
with the offset to the minute (`Json.moment_stamp`); this is the moment as it was if it has no
offset or is in universal time.
-/

namespace Billing

/-! ## Dates -/

namespace Calendar

theorem daysInMonth_le (year month : Nat) : daysInMonth year month ≤ 31 := by
  unfold daysInMonth
  split <;> try split
  all_goals decide

theorem month_lt_of_daysInMonth_pos {year month : Nat} (h : 0 < daysInMonth year month) :
    month < 13 := by
  unfold daysInMonth at h
  split at h
  case h_13 => cases h
  all_goals decide

end Calendar

namespace Date

theorem bounds (d : Date) :
    0 < d.year ∧ d.year < tenTo 4 ∧ d.month < tenTo 2 ∧ d.day < tenTo 2 := by
  obtain ⟨year, month, day, hday⟩ := d
  simp only [Calendar.isDay, Bool.and_eq_true, decide_eq_true_eq] at hday
  obtain ⟨⟨⟨hyear, hlast⟩, hfirst⟩, hmonth⟩ := hday
  have hdays := Calendar.daysInMonth_le year month
  have hmonths := Calendar.month_lt_of_daysInMonth_pos (hfirst.trans hmonth)
  have hfour : tenTo 4 = 10000 := rfl
  have htwo : tenTo 2 = 100 := rfl
  simp only [hfour, htwo]
  omega

theorem read?_chars (d : Date) (rest : List Char) : read? (d.chars ++ rest) = some (d, rest) := by
  obtain ⟨-, hyear, hmonth, hday⟩ := d.bounds
  have hof : of? d.year d.month d.day = some d := dif_pos d.isDay
  simp only [read?, chars, List.append_assoc, List.cons_append,
    takeNumber?_zeroFill _ (by decide : 0 < 4) hyear,
    takeNumber?_zeroFill _ (by decide : 0 < 2) hmonth,
    takeNumber?_zeroFill _ (by decide : 0 < 2) hday, Option.bind_eq_bind, Option.bind_some, hof]
  rfl

/-- No day of the calendar is in the year 0. -/
theorem fromYearZero?_chars (d : Date) (rest : List Char) :
    TimePoint.fromYearZero? (d.chars ++ rest) = none := by
  obtain ⟨hpos, hyear, -, -⟩ := d.bounds
  unfold TimePoint.fromYearZero?
  split
  next cs hcs =>
    -- four zeros would be read as the year 0
    have hread : takeNumber? 4 (d.chars ++ rest) = some (0, cs) := by
      rw [hcs]
      rfl
    simp only [chars, List.append_assoc, List.cons_append,
      takeNumber?_zeroFill _ (by decide : 0 < 4) hyear, Option.some.injEq, Prod.mk.injEq] at hread
    omega
  next => rfl

end Date

theorem Json.date_text (d : Date) : Json.date (.str d.text) = .ok d := by
  have hread := d.read?_chars []
  have hzero := d.fromYearZero?_chars []
  rw [List.append_nil] at hread hzero
  simp only [Json.date, Date.text, String.toList_ofList, TimePoint.ofDate?, TimePoint.ofChars?,
    hzero, hread]
  simp [Json.dateAt, Moment.midnight]

/-! ## Times of day -/

namespace Moment

/-- What can follow a time of day: nothing that would be read as a part of it. -/
def EndsClock (cs : List Char) : Prop :=
  ∀ c rest, cs = c :: rest → Text.asciiDigit? c = none ∧ c ≠ '.' ∧ c ≠ ','

theorem asciiDigits_map_append {ds : List Nat} {rest : List Char} (digits : ∀ d ∈ ds, d < 10)
    (hrest : EndsClock rest) : asciiDigits (ds.map Text.digitChar ++ rest) = (ds, rest) := by
  induction ds with
  | nil =>
      cases rest with
      | nil => rfl
      | cons c rest => simp [asciiDigits, (hrest c rest rfl).1]
  | cons d ds ih =>
      have hd := Text.asciiDigit?_digitChar (digits d List.mem_cons_self)
      have hds := ih fun e he => digits e (List.mem_cons_of_mem _ he)
      simp [asciiDigits, hd, hds]

theorem readFraction?_append {micros : Nat} {rest : List Char} (hrest : EndsClock rest)
    (h : micros < tenTo 6) :
    readFraction? (fractionChars micros ++ rest) = some (micros, rest) := by
  by_cases hzero : micros = 0
  · subst hzero
    simp only [fractionChars, if_true, List.nil_append]
    cases rest with
    | nil => rfl
    | cons c rest =>
        obtain ⟨-, hpoint, hcomma⟩ := hrest c rest rfl
        simp [readFraction?, hpoint, hcomma]
  · -- a fraction has six digits, so none has to be filled up or left out
    have hlength : (Digits.filled 6 micros).length = 6 := by
      rw [Digits.length_filled, max_eq_left ((Digits.count_le_iff (by decide)).2 h)]
    have hdigits : ∀ d ∈ Digits.filled 6 micros, d < 10 := fun d hd =>
      Digits.lt_ten_of_mem_filled hd
    have hrun := asciiDigits_map_append hdigits hrest
    have hvalue : fractionOf (Digits.filled 6 micros) = micros := by
      rw [fractionOf, hlength, Nat.sub_self, List.replicate_zero, List.append_nil,
        List.take_of_length_le hlength.le, Digits.toNat_filled]
    simp only [fractionChars, if_neg hzero, Digits.zeroFill_chars, List.cons_append,
      readFraction?, hrun]
    cases hds : Digits.filled 6 micros with
    | nil =>
        rw [hds] at hlength
        cases hlength
    | cons d ds =>
        rw [hds] at hvalue
        simp [hvalue]

theorem readClock?_append {clock : Nat} {rest : List Char} (hrest : EndsClock rest)
    (h : clock < microsPerDay) :
    readClock? (clockChars clock ++ rest) = some (clock, rest) := by
  have htwo : tenTo 2 = 100 := rfl
  have hsix : tenTo 6 = 1000000 := rfl
  have hday : microsPerDay = 86400000000 := rfl
  -- the parts of the time of day, each of which fits into its two digits
  have hhour : clock / 1000000 / 3600 < tenTo 2 := by omega
  have hminute : clock / 1000000 / 60 % 60 < tenTo 2 := by omega
  have hsecond : clock / 1000000 % 60 < tenTo 2 := by omega
  have hmicros : clock % 1000000 < tenTo 6 := by omega
  have hearly : ¬ (23 < clock / 1000000 / 3600 ∨ 59 < clock / 1000000 / 60 % 60) := by omega
  have hfull : ¬ 59 < clock / 1000000 % 60 := by omega
  -- they add up to the time of day again
  have hsum : ((clock / 1000000 / 3600 * 60 + clock / 1000000 / 60 % 60) * 60 +
      clock / 1000000 % 60) * 1000000 + clock % 1000000 = clock := by omega
  simp only [readClock?, clockChars, twoDigits, List.append_assoc, List.cons_append,
    Date.takeNumber?_zeroFill _ (by decide : 0 < 2) hhour,
    Date.takeNumber?_zeroFill _ (by decide : 0 < 2) hminute,
    Date.takeNumber?_zeroFill _ (by decide : 0 < 2) hsecond, Option.bind_eq_bind, Option.bind_some,
    if_neg hearly, if_neg hfull, readFraction?_append hrest hmicros, hsum]
  rfl

/-! ## Offsets -/

/-- An offset as far as a stamp shows it: zero for less than a second, otherwise the whole
minutes. -/
def stampedOffset (o : Int) : Int :=
  if o.natAbs < 1000000 then 0
  else if o < 0 then -(o.natAbs / 60000000 * 60000000 : Nat)
  else (o.natAbs / 60000000 * 60000000 : Nat)

theorem natAbs_stampedOffset_le (o : Int) : (stampedOffset o).natAbs ≤ o.natAbs := by
  unfold stampedOffset
  split_ifs <;> omega

theorem stampedOffset_stampedOffset (o : Int) :
    stampedOffset (stampedOffset o) = stampedOffset o := by
  unfold stampedOffset
  split_ifs <;> omega

/-- The moment as far as its stamp shows it. -/
def stamped (m : Moment) : Moment :=
  { m with
    offset := m.offset.map stampedOffset
    offset_lt := by
      intro o ho
      obtain ⟨o', ho', rfl⟩ := Option.map_eq_some_iff.1 ho
      exact (natAbs_stampedOffset_le o').trans_lt (m.offset_lt o' ho') }

theorem stamped_stamped (m : Moment) : m.stamped.stamped = m.stamped := by
  obtain ⟨date, clock, offset, hclock, hoffset⟩ := m
  cases offset <;> simp [stamped, stampedOffset_stampedOffset]

/-- The offset of a moment, if it has one, is a number of whole minutes. -/
def HasWholeMinutes (m : Moment) : Prop := ∀ o ∈ m.offset, 60000000 ∣ o

instance (m : Moment) : Decidable m.HasWholeMinutes :=
  inferInstanceAs (Decidable (∀ o ∈ m.offset, 60000000 ∣ o))

/-- Nothing is lost of a moment with an offset in whole minutes, or with none. -/
theorem stamped_of_wholeMinutes {m : Moment} (h : m.HasWholeMinutes) : m.stamped = m := by
  obtain ⟨date, clock, offset, hclock, hoffset⟩ := m
  cases offset with
  | none => rfl
  | some o =>
      have hminutes : (60000000 : Int) ∣ o := h o rfl
      have hsame : stampedOffset o = o := by
        unfold stampedOffset
        split_ifs <;> omega
      simp [stamped, hsame]

/-- Nothing is lost of a moment in universal time. -/
theorem stamped_of_universal {m : Moment} (h : m.offset = some 0) : m.stamped = m :=
  stamped_of_wholeMinutes fun o ho => by
    obtain rfl := Option.some.inj (h.symm.trans ho)
    exact dvd_zero 60000000

theorem atUniversal_of_universal {m : Moment} (h : m.offset = some 0) : m.atUniversal = m := by
  obtain ⟨date, clock, offset, hclock, hoffset⟩ := m
  obtain rfl : offset = some 0 := h
  rfl

theorem endsClock_stampOffset (o : Int) : EndsClock (stampOffset o) := by
  intro c rest h
  unfold stampOffset offsetMinutes at h
  split at h
  · obtain ⟨rfl, -⟩ := List.cons.inj h
    decide
  · obtain ⟨rfl, -⟩ := List.cons.inj h
    split <;> decide

/-- An offset that is not written with a letter has a sign, hours and minutes. -/
theorem readStampOffset?_of_sign (sign : Char) (negative : Bool) {hour minute : Nat}
    (hsign : ∀ cs, readOffsetSign? (sign :: cs) = some (negative, cs))
    (hletter : sign ≠ 'Z' ∧ sign ≠ 'z') (hhour : hour < tenTo 2) (hminute : minute < 60) :
    readStampOffset? (sign :: (twoDigits hour ++ ':' :: twoDigits minute)) =
      some (some (if negative then -(((hour * 60 + minute) * 60000000 : Nat) : Int)
        else ((hour * 60 + minute) * 60000000 : Nat))) := by
  have hminutes : minute < tenTo 2 := hminute.trans (by decide)
  have hread := Date.takeNumber?_zeroFill [] (by decide : 0 < 2) hminutes
  rw [List.append_nil] at hread
  have hfull : ¬ (59 < minute ∨ ([] : List Char) ≠ []) := by
    simp only [ne_eq, not_true_eq_false, or_false]
    omega
  unfold readStampOffset?
  split
  next h => cases h
  next h => exact absurd (List.cons.inj h).1 hletter.1
  next h => exact absurd (List.cons.inj h).1 hletter.2
  next =>
    simp only [hsign, twoDigits, Option.bind_eq_bind, Option.bind_some,
      Date.takeNumber?_zeroFill _ (by decide : 0 < 2) hhour, hread, if_neg hfull]
    rfl

theorem readStampOffset?_stampOffset {o : Int} (h : o.natAbs < microsPerDay) :
    readStampOffset? (stampOffset o) = some (some (stampedOffset o)) := by
  unfold stampOffset stampedOffset
  split
  next => rfl
  next hlong =>
    -- less than a day makes less than 24 hours
    have hday : microsPerDay = 86400000000 := rfl
    have htwo : tenTo 2 = 100 := rfl
    have hhour : o.natAbs / 60000000 / 60 < tenTo 2 := by omega
    have hminute : o.natAbs / 60000000 % 60 < 60 := Nat.mod_lt _ (by decide)
    have hsize : (o.natAbs / 60000000 / 60 * 60 + o.natAbs / 60000000 % 60) * 60000000 =
        o.natAbs / 60000000 * 60000000 := by omega
    by_cases hneg : o < 0
    · have hread := readStampOffset?_of_sign '-' true (fun _ => rfl)
        (by decide) hhour hminute
      simpa [offsetMinutes, hneg, hsize] using hread
    · have hread := readStampOffset?_of_sign '+' false (fun _ => rfl)
        (by decide) hhour hminute
      simpa [offsetMinutes, hneg, hsize] using hread

/-! ## Stamps -/

theorem ofStamp?_stampChars (m : Moment) : ofStamp? m.stampChars = some m.stamped := by
  -- after the time of day comes the offset, or nothing
  obtain ⟨tail, htext, hends, hoffset⟩ : ∃ tail,
      m.stampChars = m.date.chars ++ 'T' :: clockChars m.clock ++ tail ∧ EndsClock tail ∧
        readStampOffset? tail = some m.stamped.offset := by
    cases ho : m.offset with
    | none =>
        refine ⟨[], by simp [stampChars, ho], nofun, ?_⟩
        simp [readStampOffset?, stamped, ho]
    | some o =>
        refine ⟨stampOffset o, by simp [stampChars, ho], endsClock_stampOffset o, ?_⟩
        have hlt := m.offset_lt o (by rw [ho]; rfl)
        simp [readStampOffset?_stampOffset hlt, stamped, ho]
  have hof : of? m.date m.clock m.stamped.offset = some m.stamped :=
    dif_pos ⟨m.clock_lt, m.stamped.offset_lt⟩
  rw [htext]
  simp only [ofStamp?, List.append_assoc, Date.read?_chars, List.cons_append,
    Option.bind_eq_bind, Option.bind_some, readClock?_append hends m.clock_lt, hoffset, hof]
  rfl

end Moment

theorem Json.moment_stamp (m : Moment) : Json.moment (.str m.stamp) = .ok m.stamped := by
  have hzero : TimePoint.fromYearZero? m.stampChars = none := by
    unfold Moment.stampChars
    rw [List.append_assoc]
    exact m.date.fromYearZero?_chars _
  simp only [Json.moment, Moment.stamp, String.toList_ofList, TimePoint.ofText?,
    TimePoint.ofStamp?, TimePoint.ofChars?, hzero, Moment.ofStamp?_stampChars, Option.map_some,
    Option.some_or, Json.momentAt]

end Billing
