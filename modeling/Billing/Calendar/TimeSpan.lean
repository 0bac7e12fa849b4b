import Billing.Calendar.Moment

set_option autoImplicit false

/-! # Spans of time

A span of time runs forwards or backwards. Counted in microseconds it is an integer; a `TimeSpan` is
its normal form of days, seconds and microseconds, of which only the days can be negative. Every
number of microseconds has one normal form (`TimeSpan.inMicros_ofMicros`) and no other
(`TimeSpan.ofMicros_inMicros`). A day that is only begun counts as a whole one
(`TimeSpan.wholeDays`); as nothing but the days runs backwards, this rounds upwards on both sides of
zero (`TimeSpan.wholeDays_le_iff`).
-/

namespace Billing

/-- A span of time in its normal form: whole days, and the seconds and microseconds from there on,
which never run backwards. So one second backwards is a day backwards and 86399 seconds. -/
structure TimeSpan where
  days : Int
  seconds : Nat
  micros : Nat
  seconds_lt : seconds < 86400
  micros_lt : micros < 1000000
  deriving DecidableEq, Repr

namespace TimeSpan

/-- The span of a number of microseconds. -/
def ofMicros (n : Int) : TimeSpan where
  days := n / microsPerDay
  seconds := (n % microsPerDay).toNat / 1000000
  micros := (n % microsPerDay).toNat % 1000000
  seconds_lt := by
    rw [microsPerDay]
    omega
  micros_lt := Nat.mod_lt _ (by decide)

/-- The number of microseconds in a span. -/
def inMicros (s : TimeSpan) : Int := s.days * microsPerDay + s.seconds * 1000000 + s.micros

theorem inMicros_ofMicros (n : Int) : (ofMicros n).inMicros = n := by
  simp only [inMicros, ofMicros, microsPerDay]
  omega

theorem ofMicros_inMicros (s : TimeSpan) : ofMicros s.inMicros = s := by
  obtain ⟨days, seconds, micros, hseconds, hmicros⟩ := s
  simp only [ofMicros, inMicros, microsPerDay, mk.injEq]
  omega

/-- The days of a span, and one more if anything is left over. -/
def wholeDays (s : TimeSpan) : Int :=
  if s.seconds ≠ 0 ∨ s.micros ≠ 0 then s.days + 1 else s.days

/-- A number of days is enough for a span if it is enough for its whole days. -/
theorem wholeDays_le_iff {s : TimeSpan} {k : Int} :
    s.wholeDays ≤ k ↔ s.inMicros ≤ k * microsPerDay := by
  have hseconds := s.seconds_lt
  have hmicros := s.micros_lt
  rw [inMicros, microsPerDay]
  by_cases hrest : s.seconds ≠ 0 ∨ s.micros ≠ 0
  · rw [wholeDays, if_pos hrest]
    omega
  · rw [wholeDays, if_neg hrest]
    omega

end TimeSpan

end Billing
