import NestedHover.Alarm
import NestedHover.Region.Registry
import NestedHover.Settings
import NestedHover.Spotlight.Highlight

/-!
# The spotlight

The spotlight settles which one of the registered regions holds the highlight.
A region asks for it at once or after a delay, or asks to lose it after a delay.
Every request from a registered region first cancels what is pending and restores
the region that it was about, so at most one change is pending.  Requests from
other regions are ignored.

A delayed request whose deadline has no instant fails after it has cancelled what
was pending and marked its region; nothing is armed then.

Main results:

- Theorems {lit}`activate_of_not_registered`,
  {lit}`activateLater_of_not_registered` and
  {lit}`deactivateLater_of_not_registered`: requests from regions that are not
  registered change nothing.
- Theorem {lit}`pending?_cancelPending`: nothing is pending after cancelling.
- Theorem {lit}`active_cancelPending`: cancelling leaves the holder of the
  highlight.
- Theorems {lit}`highlight_setHighlight_self` and
  {lit}`highlight_setHighlight_of_ne`: marking a region changes its highlight, if
  it is registered, and no other.
-/

namespace NestedHover

/-- Which region holds the highlight, and what is about to happen to it. -/
structure Spotlight where
  settings : Settings := {}
  /-- The registered regions with their highlights. -/
  registry : Registry Highlight := {}
  /-- The region that holds the highlight. -/
  active : Option RegionKey := none
  /-- The pending change with its deadline. -/
  alarm : Alarm Pending := {}
  /-- How often the highlight went to a region that did not hold it. -/
  activations : Nat := 0
deriving DecidableEq

namespace Spotlight

/-! ## Queries -/

/-- The highlight of a region; a region that is not registered is hidden. -/
def highlight (s : Spotlight) (region : RegionKey) : Highlight :=
  (s.registry.get? region).getD .hidden

/-- Whether a region is registered. -/
def isRegistered (s : Spotlight) (region : RegionKey) : Bool :=
  s.registry.contains region

/-- The pending change. -/
def pending? (s : Spotlight) : Option Pending := s.alarm.payload?

/-- The region whose activation is pending. -/
def pendingActivation? (s : Spotlight) : Option RegionKey :=
  match s.pending? with
  | some (.activate region) => some region
  | _ => none

/-- The region whose deactivation is pending. -/
def pendingDeactivation? (s : Spotlight) : Option RegionKey :=
  match s.pending? with
  | some (.deactivate region) => some region
  | _ => none

/-- The deadline of the pending change. -/
def deadline? (s : Spotlight) : Option Instant := s.alarm.deadline?

/-- The serial number of the pending change. -/
def serial? (s : Spotlight) : Option Nat := s.alarm.serial?

/-- The registered regions with their highlights, by increasing slot. -/
def highlights (s : Spotlight) : List (RegionKey × Highlight) := s.registry.entries

/-! ## Steps shared by the operations -/

/-- Marks a region, if it is registered. -/
def setHighlight (s : Spotlight) (region : RegionKey) (h : Highlight) : Spotlight :=
  { s with registry := s.registry.update region h }

/-- The spotlight with nothing armed. -/
def disarm (s : Spotlight) : Spotlight := { s with alarm := s.alarm.disarm }

/-- Drops the pending change and restores the region that it was about. -/
def cancelPending (s : Spotlight) : Spotlight :=
  match s.pending? with
  | some (.activate region) =>
      if s.highlight region = .pendingActive then
        s.disarm.setHighlight region .hidden
      else s.disarm
  | some (.deactivate region) =>
      if s.highlight region = .pendingHidden then
        s.disarm.setHighlight region .active
      else s.disarm
  | none => s.disarm

/-- Gives the highlight to a region and hides the one that held it. -/
def activateNow (s : Spotlight) (region : RegionKey) : Transition × Spotlight :=
  if s.active = some region then (.none, s.setHighlight region .active)
  else
    let hidden :=
      match s.active with
      | some previous => s.setHighlight previous .hidden
      | none => s
    (.activated region s.active,
      { hidden.setHighlight region .active with
        active := some region
        activations := s.activations + 1 })

/-- Arms a pending change to take effect after the activation delay. -/
def schedule (s : Spotlight) (pending : Pending) (now : Instant) :
    Except ClockError Transition × Spotlight :=
  let outcome := s.alarm.set now s.settings.activationDelay pending
  (outcome.1.map (Transition.scheduled pending), { s with alarm := outcome.2 })

/-! ## Operations -/

/-- The spotlight with other settings; what is armed keeps its deadline. -/
def configure (s : Spotlight) (settings : Settings) : Spotlight := { s with settings }

/-- Enters a region as hidden, unless it is registered already. -/
def register (s : Spotlight) (region : RegionKey) : Spotlight :=
  if s.isRegistered region then s
  else { s with registry := s.registry.insert region .hidden }

/-- Forgets a region and whatever refers to it. -/
def deregister (s : Spotlight) (region : RegionKey) : Spotlight :=
  { s with
    registry := s.registry.erase region
    active := s.active.filter fun holder => holder ≠ region
    alarm := (s.alarm.cancelIf fun pending => pending.region = region).2 }

/-- Gives the highlight to a region at once. -/
def activate (s : Spotlight) (region : RegionKey) : Transition × Spotlight :=
  if s.isRegistered region then s.cancelPending.activateNow region else (.none, s)

/-- Gives the highlight to a region after the delay; a region that holds it
already keeps it. -/
def activateLater (s : Spotlight) (region : RegionKey) (now : Instant) :
    Except ClockError Transition × Spotlight :=
  if s.isRegistered region then
    let idle := s.cancelPending
    if idle.active = some region then (.ok .none, idle)
    else (idle.setHighlight region .pendingActive).schedule (.activate region) now
  else (.ok .none, s)

/-- Takes the highlight from a region after the delay, if it still holds it
then. -/
def deactivateLater (s : Spotlight) (region : RegionKey) (now : Instant) :
    Except ClockError Transition × Spotlight :=
  if s.isRegistered region then
    let idle := s.cancelPending
    let marked :=
      if idle.active = some region then idle.setHighlight region .pendingHidden
      else idle
    marked.schedule (.deactivate region) now
  else (.ok .none, s)

/-- Lets the pending change take effect if its deadline has been reached.  The
activation of a region that is no longer registered and the deactivation of one
that no longer holds the highlight come to nothing. -/
def tick (s : Spotlight) (now : Instant) : Transition × Spotlight :=
  match s.alarm.due? now with
  | some (.activate region) =>
      if s.isRegistered region then s.disarm.activateNow region
      else (.none, s.disarm)
  | some (.deactivate region) =>
      if s.active = some region then
        (.deactivated region,
          { s.disarm.setHighlight region .hidden with active := none })
      else (.none, s.disarm)
  | none => (.none, s)

/-- Hides every region and drops the pending change. -/
def reset (s : Spotlight) : Spotlight :=
  { s with
    registry := s.registry.fill .hidden
    active := none
    alarm := s.alarm.disarm }

/-! ## Laws -/

theorem highlight_setHighlight_self {s : Spotlight} {region : RegionKey}
    (hregistered : s.isRegistered region = true) (h : Highlight) :
    (s.setHighlight region h).highlight region = h := by
  obtain ⟨old, hold⟩ := Option.isSome_iff_exists.mp hregistered
  simp [highlight, setHighlight, Registry.get?_update_self, hold]

theorem highlight_setHighlight_of_ne (s : Spotlight) {region other : RegionKey}
    (hne : other ≠ region) (h : Highlight) :
    (s.setHighlight region h).highlight other = s.highlight other := by
  simp [highlight, setHighlight, Registry.get?_update_of_ne _ _ hne]

@[simp] theorem isRegistered_setHighlight (s : Spotlight) (region other : RegionKey)
    (h : Highlight) :
    (s.setHighlight region h).isRegistered other = s.isRegistered other := by
  simp [isRegistered, Registry.contains, setHighlight, Registry.update]

@[simp] theorem active_setHighlight (s : Spotlight) (region : RegionKey)
    (h : Highlight) : (s.setHighlight region h).active = s.active := rfl

@[simp] theorem alarm_setHighlight (s : Spotlight) (region : RegionKey)
    (h : Highlight) : (s.setHighlight region h).alarm = s.alarm := rfl

@[simp] theorem pending?_cancelPending (s : Spotlight) :
    s.cancelPending.pending? = none := by
  unfold cancelPending
  split <;> try split
  all_goals rfl

@[simp] theorem active_cancelPending (s : Spotlight) :
    s.cancelPending.active = s.active := by
  unfold cancelPending
  split <;> try split
  all_goals rfl

theorem activate_of_not_registered {s : Spotlight} {region : RegionKey}
    (h : s.isRegistered region = false) : s.activate region = (.none, s) := by
  simp [activate, h]

theorem activateLater_of_not_registered {s : Spotlight} {region : RegionKey}
    (h : s.isRegistered region = false) (now : Instant) :
    s.activateLater region now = (.ok .none, s) := by
  simp [activateLater, h]

theorem deactivateLater_of_not_registered {s : Spotlight} {region : RegionKey}
    (h : s.isRegistered region = false) (now : Instant) :
    s.deactivateLater region now = (.ok .none, s) := by
  simp [deactivateLater, h]

end Spotlight

end NestedHover
