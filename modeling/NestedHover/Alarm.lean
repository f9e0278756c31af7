import NestedHover.Clock

/-!
# A one-slot alarm

An alarm holds at most one deadline with a payload to hand out once the
deadline is reached.  Setting it replaces what was armed.  Every attempt to set
it uses up one serial number, counted from 1, even an attempt whose deadline has
no instant; such an attempt leaves the armed entry alone.

Main results:

- Theorem {lit}`Alarm.set_of_after_eq_ok`: a deadline within the clock's range
  is armed under the next serial number.
- Theorem {lit}`Alarm.set_of_after_eq_error`: a deadline beyond it arms nothing.
- Theorem {lit}`Alarm.due?_eq_some_iff`: a payload is due exactly when it is
  armed and its deadline has been reached.
- Theorem {lit}`Alarm.snd_cancelIf`: cancelling on a condition takes out an armed
  payload that satisfies it.
-/

namespace NestedHover

/-- What an alarm is armed with. -/
structure Alarm.Entry (α : Type) where
  serial : Nat
  deadline : Instant
  payload : α
deriving DecidableEq, Repr

/-- An alarm: how many serial numbers it has used up, and what is armed. -/
structure Alarm (α : Type) where
  issued : Nat := 0
  armed : Option (Alarm.Entry α) := none
deriving DecidableEq, Repr

namespace Alarm

variable {α : Type}

/-! ## What is armed -/

/-- The armed payload. -/
def payload? (a : Alarm α) : Option α := a.armed.map Entry.payload

/-- The deadline of the armed payload. -/
def deadline? (a : Alarm α) : Option Instant := a.armed.map Entry.deadline

/-- The serial number of the armed payload. -/
def serial? (a : Alarm α) : Option Nat := a.armed.map Entry.serial

/-- Whether anything is armed. -/
def isArmed (a : Alarm α) : Bool := a.armed.isSome

/-- The payload whose deadline has been reached. -/
def due? (a : Alarm α) (now : Instant) : Option α :=
  (a.armed.filter fun entry => entry.deadline ≤ now).map Entry.payload

theorem due?_eq_some_iff {a : Alarm α} {now : Instant} {payload : α} :
    a.due? now = some payload ↔
      ∃ entry, a.armed = some entry ∧ entry.deadline ≤ now ∧
        entry.payload = payload := by
  simp [due?, Option.map_eq_some_iff, Option.filter_eq_some_iff, and_assoc]

/-! ## Operations -/

/-- The alarm with nothing armed; the serial numbers used up stay so. -/
def disarm (a : Alarm α) : Alarm α := { a with armed := none }

/-- Arms the payload to fall due a delay from now, and answers its serial
number. -/
def set (a : Alarm α) (now : Instant) (delay : Duration) (payload : α) :
    Except ClockError Nat × Alarm α :=
  let serial := a.issued + 1
  match now.after delay with
  | .ok deadline => (.ok serial, ⟨serial, some ⟨serial, deadline, payload⟩⟩)
  | .error e => (.error e, { a with issued := serial })

/-- Disarms the alarm and answers the payload that will not fall due. -/
def cancel (a : Alarm α) : Option α × Alarm α := (a.payload?, a.disarm)

/-- Disarms the alarm if the armed payload satisfies the condition. -/
def cancelIf (condition : α → Bool) (a : Alarm α) : Option α × Alarm α :=
  match a.payload? with
  | some payload => if condition payload then a.cancel else (none, a)
  | none => (none, a)

/-- Takes the payload out if its deadline has been reached. -/
def poll (a : Alarm α) (now : Instant) : Option α × Alarm α :=
  match a.due? now with
  | some payload => (some payload, a.disarm)
  | none => (none, a)

theorem set_of_after_eq_ok {a : Alarm α} {now deadline : Instant}
    {delay : Duration} (h : now.after delay = .ok deadline) (payload : α) :
    a.set now delay payload =
      (.ok (a.issued + 1),
        ⟨a.issued + 1, some ⟨a.issued + 1, deadline, payload⟩⟩) := by
  simp [set, h]

theorem set_of_after_eq_error {a : Alarm α} {now : Instant} {delay : Duration}
    {e : ClockError} (h : now.after delay = .error e) (payload : α) :
    a.set now delay payload = (.error e, ⟨a.issued + 1, a.armed⟩) := by
  simp [set, h]

/-- Cancelling on a condition takes an armed payload that satisfies it out and changes nothing
else. -/
theorem snd_cancelIf (condition : α → Bool) (a : Alarm α) :
    (a.cancelIf condition).2 =
      { a with armed := a.armed.filter fun entry => !condition entry.payload } := by
  obtain ⟨issued, armed⟩ := a
  cases armed with
  | none => rfl
  | some entry =>
      by_cases h : condition entry.payload = true <;>
        simp [cancelIf, payload?, cancel, disarm, Option.filter, h]

@[simp] theorem issued_disarm (a : Alarm α) : a.disarm.issued = a.issued := rfl

@[simp] theorem armed_disarm (a : Alarm α) : a.disarm.armed = none := rfl

@[simp] theorem payload?_disarm (a : Alarm α) : a.disarm.payload? = none := rfl

@[simp] theorem deadline?_disarm (a : Alarm α) : a.disarm.deadline? = none := rfl

@[simp] theorem serial?_disarm (a : Alarm α) : a.disarm.serial? = none := rfl

end Alarm

end NestedHover
