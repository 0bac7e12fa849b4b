import Mathlib.Order.Bounds.Basic
import Billing.Invoice.Proration
import Billing.Proofs.Except

set_option autoImplicit false

/-! # The span of a period

Two ends of a period have a span, unless they are two moments of which one has an offset and the
other one has none (`PeriodEnd.Mixes`). The span is the way between their positions on the time
line, where a date is its midnight by the clock of the other end (`PeriodEnd.instantBeside`), so it
only changes its sign when the ends change places. The whole days of a span are the least number of
days that it fits into. `PeriodEnd.signed_span_in_least_days` puts this together.
-/

namespace Billing

/-! ## Whole days -/

/-- A span fits into its whole days, and into no fewer. -/
theorem isLeast_wholeDays (span : ℤ) : IsLeast {k : ℤ | span ≤ k * microsPerDay} (wholeDays span) :=
  ⟨wholeDays_le_iff.1 le_rfl, fun _ hk => wholeDays_le_iff.2 hk⟩

theorem wholeDays_pos {span : ℤ} (h : 0 < span) : 0 < wholeDays span := by
  by_contra hdays
  have hspan := wholeDays_le_iff.1 (not_lt.1 hdays)
  omega

theorem wholeDays_mono {span longer : ℤ} (h : span ≤ longer) : wholeDays span ≤ wholeDays longer :=
  wholeDays_le_iff.2 (h.trans (isLeast_wholeDays longer).1)

namespace PeriodEnd

variable {start finish : PeriodEnd}

/-! ## Ends as they are given -/

/-- An end of a period as a caller hands it over. -/
def given : PeriodEnd → Given
  | day d => .day d
  | moment m => .moment m

theorem of_eq_ok_iff {field : String} {g : Given} : of field g = .ok start ↔ g = start.given := by
  constructor
  · intro h
    cases g with
    | day d =>
        obtain rfl := Except.ok.inj h
        rfl
    | moment m =>
        obtain rfl := Except.ok.inj h
        rfl
    | _ => cases h
  · rintro rfl
    cases start <;> rfl

theorem spanOf_given (start finish : PeriodEnd) :
    spanOf start.given finish.given = start.span finish := by
  rw [spanOf, of_eq_ok_iff.2 rfl, of_eq_ok_iff.2 rfl]
  rfl

/-- There is a span between dates and moments only. -/
theorem spanOf_eq_ok_iff {g g' : Given} {span : ℤ} :
    spanOf g g' = .ok span ↔
      ∃ start finish : PeriodEnd, g = start.given ∧ g' = finish.given ∧
        start.span finish = .ok span := by
  constructor
  · intro h
    obtain ⟨start, hstart, h⟩ := Except.bind_eq_ok_iff.1 h
    obtain ⟨finish, hfinish, h⟩ := Except.bind_eq_ok_iff.1 h
    exact ⟨start, finish, of_eq_ok_iff.1 hstart, of_eq_ok_iff.1 hfinish, h⟩
  · rintro ⟨start, finish, rfl, rfl, h⟩
    rwa [spanOf_given]

/-! ## The way between two ends -/

/-- The ends are two moments, one with an offset and one without. -/
def Mixes : PeriodEnd → PeriodEnd → Prop
  | moment a, moment b => ¬(a.offset.isSome ↔ b.offset.isSome)
  | _, _ => False

theorem mixes_comm : start.Mixes finish ↔ finish.Mixes start := by
  cases start <;> cases finish <;> simp only [Mixes, iff_comm]

/-- The offset of the clock that a moment is read off. -/
def offset? : PeriodEnd → Option ℤ
  | day _ => none
  | moment m => m.offset

/-- The position of an end on the time line in microseconds. A date is at its midnight by the clock
of the other end, or by one without an offset. -/
def instantBeside : PeriodEnd → PeriodEnd → ℤ
  | day d, other => d.ordinal * microsPerDay - other.offset?.getD 0
  | moment m, _ => m.instant

theorem instant_momentBeside (p : PeriodEnd) (clock : Moment) :
    (p.momentBeside clock).instant = p.instantBeside (moment clock) := by
  cases p with
  | day d => simp [momentBeside, instantBeside, Moment.instant, offset?]
  | moment m => rfl

/-- Every end of a period is at some moment. -/
theorem exists_instant_eq (p other : PeriodEnd) :
    ∃ m : Moment, m.instant = p.instantBeside other := by
  cases other with
  | moment clock => exact ⟨p.momentBeside clock, instant_momentBeside p clock⟩
  | day d =>
      cases p with
      | day first =>
          refine ⟨.midnight first, ?_⟩
          simp [instantBeside, offset?, Moment.instant, Moment.midnight]
      | moment m => exact ⟨m, rfl⟩

/-- A date has the offset of the clock that it is put beside. -/
theorem isNone_offset_momentBeside {p : PeriodEnd} {clock : Moment} :
    (p.momentBeside clock).offset.isNone = clock.offset.isNone ↔ ¬(moment clock).Mixes p := by
  cases p with
  | day d => simp [momentBeside, Mixes]
  | moment m =>
      cases hm : m.offset <;> cases hclock : clock.offset <;> simp [momentBeside, Mixes, hm, hclock]

/-- Two moments that mix are refused under the name of the second one. -/
theorem span_of_mixes (h : start.Mixes finish) :
    ∃ b : Moment, finish = moment b ∧ start.span finish =
      .error (.invalid "endDate" (b.text ++ " mixes naive and aware times")) := by
  match start, finish, h with
  | moment a, moment b, h =>
      exact ⟨b, rfl, if_neg fun hnone => isNone_offset_momentBeside.1 hnone.symm h⟩

/-- All others have a span, which is the way from one position to the other. -/
theorem span_of_not_mixes (h : ¬start.Mixes finish) :
    start.span finish = .ok (finish.instantBeside start - start.instantBeside finish) := by
  -- no clock is involved between two dates; in all other cases a moment lends its own
  match start, finish, h with
  | day a, day b, _ =>
      simp [span, instantBeside, offset?, Int.sub_mul]
  | moment a, finish, h =>
      rw [span, spanBetween, if_pos (isNone_offset_momentBeside.2 h).symm, instant_momentBeside]
      rfl
  | day a, moment b, h =>
      rw [span, spanBetween, if_pos (isNone_offset_momentBeside.2 (mt mixes_comm.1 h)),
        instant_momentBeside]
      rfl

theorem span_eq_ok_iff {length : ℤ} :
    start.span finish = .ok length ↔
      ¬start.Mixes finish ∧ length = finish.instantBeside start - start.instantBeside finish := by
  by_cases hmixes : start.Mixes finish
  · obtain ⟨b, -, hrefused⟩ := span_of_mixes hmixes
    simp [hrefused, hmixes]
  · simp [span_of_not_mixes hmixes, hmixes, eq_comm]

theorem exists_spanOf_eq_error_iff :
    (∃ e, spanOf start.given finish.given = .error e) ↔ start.Mixes finish := by
  rw [spanOf_given]
  constructor
  · rintro ⟨e, he⟩
    by_contra hmixes
    rw [span_of_not_mixes hmixes] at he
    cases he
  · intro hmixes
    obtain ⟨b, -, hrefused⟩ := span_of_mixes hmixes
    exact ⟨_, hrefused⟩

/-- Whether a period has a span does not depend on the order of its ends, and in the other order its
sign is the other one. It is the way from one instant to the other. The whole days of a span are the
least number of days that it fits into; they are positive where the span is, and grow with it. -/
theorem signed_span_in_least_days (start finish : PeriodEnd) :
    ((∃ e, spanOf start.given finish.given = .error e) ↔
      ∃ e, spanOf finish.given start.given = .error e) ∧
    ((∃ e, spanOf start.given finish.given = .error e) ↔ start.Mixes finish) ∧
    (¬start.Mixes finish → ∃ span,
      spanOf start.given finish.given = .ok span ∧ spanOf finish.given start.given = .ok (-span) ∧
        span = finish.instantBeside start - start.instantBeside finish) ∧
    (∀ span, IsLeast {k : ℤ | span ≤ k * microsPerDay} (wholeDays span)) ∧
    (∀ span, 0 < span → 0 < wholeDays span) ∧
    (∀ span longer, span ≤ longer → wholeDays span ≤ wholeDays longer) := by
  refine ⟨?_, exists_spanOf_eq_error_iff, fun hmixes => ⟨_, ?_, ?_, rfl⟩, isLeast_wholeDays,
    fun _ => wholeDays_pos, fun _ _ => wholeDays_mono⟩
  · rw [exists_spanOf_eq_error_iff, exists_spanOf_eq_error_iff, mixes_comm]
  · rw [spanOf_given, span_of_not_mixes hmixes]
  · rw [spanOf_given, span_of_not_mixes (mt mixes_comm.1 hmixes), Int.neg_sub]

/-- Noon on 15 January 2026, by a clock that is five hours and a half ahead. -/
def sampleNoon : Moment :=
  ⟨⟨2026, 1, 15, by decide⟩, 43200000000, some 19800000000, by decide, by decide⟩

/-- From the first of January to noon on the fifteenth fourteen days and a half go by, whatever the
clock: these make fifteen whole days, and minus fourteen backwards. -/
theorem signed_span_in_least_days_sample :
    ¬(day ⟨2026, 1, 1, by decide⟩).Mixes (moment sampleNoon) ∧
      spanOf (.day ⟨2026, 1, 1, by decide⟩) (.moment sampleNoon) = .ok (29 * 43200000000) ∧
      spanOf (.moment sampleNoon) (.day ⟨2026, 1, 1, by decide⟩) = .ok (-(29 * 43200000000)) ∧
      0 < wholeDays (29 * 43200000000) ∧
      wholeDays (-(29 * 43200000000)) ≤ wholeDays (29 * 43200000000) ∧
      wholeDays (29 * 43200000000) = 15 ∧ wholeDays (-(29 * 43200000000)) = -14 ∧
      (∃ e, spanOf (.moment sampleNoon.wallClock) (.moment sampleNoon) = .error e) := by
  have hmixes : ¬(day ⟨2026, 1, 1, by decide⟩).Mixes (moment sampleNoon) := id
  obtain ⟨-, -, hspan, -, hpos, hmono⟩ :=
    signed_span_in_least_days (day ⟨2026, 1, 1, by decide⟩) (moment sampleNoon)
  obtain ⟨span, hforward, hbackward, rfl⟩ := hspan hmixes
  have hlength : (moment sampleNoon).instantBeside (day ⟨2026, 1, 1, by decide⟩) -
      (day ⟨2026, 1, 1, by decide⟩).instantBeside (moment sampleNoon) = 29 * 43200000000 := by
    decide +kernel
  rw [hlength] at hforward hbackward
  have hrefused := (signed_span_in_least_days (moment sampleNoon.wallClock) (moment sampleNoon)).2.1
  exact ⟨hmixes, hforward, hbackward, hpos _ (by decide), hmono _ _ (by decide), by decide +kernel,
    by decide +kernel, hrefused.2 (by simp [Mixes, sampleNoon, Moment.wallClock])⟩

end PeriodEnd

end Billing
