/-!
# Time

Nothing in this library reads a clock or sleeps: whoever drives it passes every
instant in.  Durations and instants are whole nanoseconds, an instant counting
from some common origin and possibly before it.  Instants are bounded above, so
the end of a long delay may have no instant; that is an error, not a wrap.

Main results:

- Theorem {lit}`Instant.after_eq_ok_iff`: a delay ends at the sum of instant and
  delay, exactly when that sum is below the bound.
-/

namespace NestedHover

/-- A length of time in nanoseconds. -/
abbrev Duration := Nat

namespace Duration

/-- The duration of a count of milliseconds. -/
def ofMillis (millis : Nat) : Duration := millis * 1000000

/-- The count of whole milliseconds in a duration, rounded down. -/
def wholeMillis (d : Duration) : Nat := d / 1000000

@[simp] theorem wholeMillis_ofMillis (millis : Nat) :
    wholeMillis (ofMillis millis) = millis := by
  simp [wholeMillis, ofMillis]

end Duration

/-- A point in time, in nanoseconds since a common origin. -/
abbrev Instant := Int

/-- Why an instant cannot be named. -/
inductive ClockError where
  /-- The end of a delay lies beyond the last instant. -/
  | deadlineOverflow
deriving DecidableEq, Repr

/-- The wording of a clock error. -/
def ClockError.message : ClockError → String
  | deadlineOverflow => "overflow when adding duration to instant"

namespace Instant

/-- The bound below which every instant lies: seconds are counted in 63 bits. -/
def bound : Instant := 0x8000000000000000 * 1000000000

/-- The instant at which a delay that starts now ends. -/
def after (now : Instant) (delay : Duration) : Except ClockError Instant :=
  if now + (delay : Int) < bound then .ok (now + (delay : Int))
  else .error .deadlineOverflow

theorem after_eq_ok_iff {now deadline : Instant} {delay : Duration} :
    now.after delay = .ok deadline ↔
      deadline = now + (delay : Int) ∧ now + (delay : Int) < bound := by
  unfold after
  split
  · rename_i h
    simp only [Except.ok.injEq, h, and_true]
    exact eq_comm
  · rename_i h
    simp [h]

end Instant

end NestedHover
