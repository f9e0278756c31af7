import NestedHover.Proofs.Spotlight.Journal
import NestedHover.Proofs.Spotlight.Registrations
import Mathlib.Data.List.Forall2

/-!
# Resetting

A spotlight that has been reset remembers of its past only which regions are registered, how
many serial numbers are used up and how often the highlight has been given away.  No call
looks at the two numbers; it only adds to them.  So from a reset on the spotlight behaves as a
new one with the same settings and the same regions registered, whatever was active, pending,
pushed out of the registry or left behind by a failed request.

That a call does not look at the numbers is said by moving both ahead by constant amounts,
which commutes with every call.

Main results:

- Theorem {lit}`perform_advance`: a call on a spotlight whose numbers are ahead does the same,
  and leaves them ahead.
- Theorem {lit}`journal_advance`: the same of a run with everything that it answers.
- Theorem {lit}`isRegistered_run_registrations_iff`: registering keys of different slots in any
  order registers exactly them.
- Theorem {lit}`reset_matches_fresh`: a spotlight that has been reset and a new one, over all
  later runs.
-/

namespace NestedHover

/-! ## Numbers that are ahead -/

namespace Alarm

variable {α : Type}

/-- The alarm with more serial numbers used up; what is armed is renumbered. -/
def advance (serials : Nat) (a : Alarm α) : Alarm α where
  issued := a.issued + serials
  armed := a.armed.map fun entry => { entry with serial := entry.serial + serials }

variable {serials : Nat} {a : Alarm α}

@[simp] theorem payload?_advance : (a.advance serials).payload? = a.payload? := by
  simp [payload?, advance, Function.comp_def]

@[simp] theorem deadline?_advance : (a.advance serials).deadline? = a.deadline? := by
  simp [deadline?, advance, Function.comp_def]

theorem serial?_advance : (a.advance serials).serial? = a.serial?.map (· + serials) := by
  simp [serial?, advance, Function.comp_def]

@[simp] theorem disarm_advance : (a.advance serials).disarm = a.disarm.advance serials := rfl

@[simp] theorem due?_advance (now : Instant) :
    (a.advance serials).due? now = a.due? now := by
  cases harmed : a.armed with
  | none => simp [due?, advance, harmed]
  | some entry =>
      by_cases hreached : entry.deadline ≤ now <;>
        simp [due?, advance, harmed, Option.filter, hreached]

theorem set_advance (a : Alarm α) (serials : Nat) (now : Instant) (delay : Duration)
    (payload : α) :
    (a.advance serials).set now delay payload =
      ((a.set now delay payload).1.map (· + serials),
        (a.set now delay payload).2.advance serials) := by
  have hnext : a.issued + serials + 1 = a.issued + 1 + serials := by omega
  cases hafter : now.after delay with
  | ok deadline =>
      rw [set_of_after_eq_ok hafter, set_of_after_eq_ok hafter]
      simp [advance, Except.map, hnext]
  | error e =>
      rw [set_of_after_eq_error hafter, set_of_after_eq_error hafter]
      simp [advance, Except.map, hnext]

theorem cancelIf_advance (condition : α → Bool) :
    ((a.advance serials).cancelIf condition).2 = (a.cancelIf condition).2.advance serials := by
  rw [snd_cancelIf, snd_cancelIf]
  cases harmed : a.armed with
  | none => simp [advance, harmed]
  | some entry =>
      by_cases hcondition : condition entry.payload = true <;>
        simp [advance, harmed, Option.filter, hcondition]

end Alarm

/-- The transition with the serial number of the pending change counted on. -/
def Transition.renumber (serials : Nat) : Transition → Transition
  | .scheduled pending serial => .scheduled pending (serial + serials)
  | transition => transition

namespace Spotlight

variable {s t : Spotlight} {region : RegionKey} {serials activations : Nat}

/-- The spotlight with more serial numbers used up and more activations counted. -/
def advance (serials activations : Nat) (s : Spotlight) : Spotlight :=
  { s with alarm := s.alarm.advance serials, activations := s.activations + activations }

/-! ## Calls do not look at the numbers -/

@[simp] theorem isRegistered_advance (key : RegionKey) :
    (s.advance serials activations).isRegistered key = s.isRegistered key := rfl

@[simp] theorem highlight_advance (key : RegionKey) :
    (s.advance serials activations).highlight key = s.highlight key := rfl

@[simp] theorem active_advance : (s.advance serials activations).active = s.active := rfl

@[simp] theorem pending?_advance : (s.advance serials activations).pending? = s.pending? :=
  Alarm.payload?_advance

theorem setHighlight_advance (mark : Highlight) :
    (s.advance serials activations).setHighlight region mark =
      (s.setHighlight region mark).advance serials activations := rfl

theorem disarm_advance :
    (s.advance serials activations).disarm = s.disarm.advance serials activations := rfl

theorem cancelPending_advance :
    (s.advance serials activations).cancelPending =
      s.cancelPending.advance serials activations := by
  unfold cancelPending
  rw [pending?_advance]
  cases s.pending? with
  | none => rfl
  | some pending =>
      cases pending with
      | activate region =>
          dsimp only
          rw [highlight_advance, disarm_advance, setHighlight_advance, apply_ite (advance _ _)]
      | deactivate region =>
          dsimp only
          rw [highlight_advance, disarm_advance, setHighlight_advance, apply_ite (advance _ _)]

theorem activateNow_advance (s : Spotlight) (region : RegionKey) :
    (s.advance serials activations).activateNow region =
      ((s.activateNow region).1.renumber serials,
        (s.activateNow region).2.advance serials activations) := by
  unfold activateNow
  rw [active_advance]
  split
  · rfl
  · have hcount : s.activations + activations + 1 = s.activations + 1 + activations := by omega
    cases s.active <;>
      simp [Transition.renumber, advance, setHighlight, hcount]

theorem schedule_advance (s : Spotlight) (pending : Pending) (now : Instant) :
    (s.advance serials activations).schedule pending now =
      ((s.schedule pending now).1.map (Transition.renumber serials),
        (s.schedule pending now).2.advance serials activations) := by
  have hset := s.alarm.set_advance serials now s.settings.activationDelay pending
  unfold schedule
  simp only [advance, hset]
  cases (s.alarm.set now s.settings.activationDelay pending).1 <;> rfl

theorem activate_advance (s : Spotlight) (region : RegionKey) :
    (s.advance serials activations).activate region =
      ((s.activate region).1.renumber serials,
        (s.activate region).2.advance serials activations) := by
  unfold activate
  rw [isRegistered_advance]
  split
  · rw [cancelPending_advance, activateNow_advance]
  · rfl

theorem activateLater_advance (s : Spotlight) (region : RegionKey) (now : Instant) :
    (s.advance serials activations).activateLater region now =
      ((s.activateLater region now).1.map (Transition.renumber serials),
        (s.activateLater region now).2.advance serials activations) := by
  unfold activateLater
  rw [isRegistered_advance]
  split
  · dsimp only
    rw [cancelPending_advance, active_advance]
    split
    · rfl
    · rw [setHighlight_advance, schedule_advance]
  · rfl

theorem deactivateLater_advance (s : Spotlight) (region : RegionKey) (now : Instant) :
    (s.advance serials activations).deactivateLater region now =
      ((s.deactivateLater region now).1.map (Transition.renumber serials),
        (s.deactivateLater region now).2.advance serials activations) := by
  unfold deactivateLater
  rw [isRegistered_advance]
  split
  · dsimp only
    rw [cancelPending_advance, active_advance, setHighlight_advance,
      ← apply_ite (advance serials activations), schedule_advance]
  · rfl

theorem tick_advance (s : Spotlight) (now : Instant) :
    (s.advance serials activations).tick now =
      ((s.tick now).1.renumber serials, (s.tick now).2.advance serials activations) := by
  have hdue : (s.advance serials activations).alarm.due? now = s.alarm.due? now :=
    Alarm.due?_advance now
  unfold tick
  rw [hdue]
  cases s.alarm.due? now with
  | none => rfl
  | some pending =>
      cases pending with
      | activate region =>
          dsimp only
          rw [isRegistered_advance, disarm_advance]
          split
          · exact activateNow_advance s.disarm region
          · rfl
      | deactivate region =>
          dsimp only
          rw [active_advance]
          split <;> rfl

theorem register_advance (s : Spotlight) (region : RegionKey) :
    (s.advance serials activations).register region =
      (s.register region).advance serials activations := by
  unfold register
  rw [isRegistered_advance]
  split <;> rfl

theorem deregister_advance (s : Spotlight) (region : RegionKey) :
    (s.advance serials activations).deregister region =
      (s.deregister region).advance serials activations := by
  unfold deregister
  simp only [advance, Alarm.cancelIf_advance]

/-- A call on a spotlight whose numbers are ahead does what it does on the other one, and
leaves them ahead by as much. -/
theorem perform_advance (s : Spotlight) (call : Operation) :
    (s.advance serials activations).perform call =
      ((s.perform call).1.map (Transition.renumber serials),
        (s.perform call).2.advance serials activations) := by
  cases call with
  | configure settings => rfl
  | register region => rw [perform, register_advance]; rfl
  | deregister region => rw [perform, deregister_advance]; rfl
  | activate region => rw [perform, activate_advance]; rfl
  | activateLater region now => exact activateLater_advance s region now
  | deactivateLater region now => exact deactivateLater_advance s region now
  | tick now => rw [perform, tick_advance]; rfl
  | reset => rfl

/-! ## What can be seen of a spotlight that is ahead -/

/-- The first spotlight shows all that the second one shows; only its numbers are ahead. -/
structure Ahead (serials activations : Nat) (s t : Spotlight) : Prop where
  settings_eq : s.settings = t.settings
  /-- The same regions are registered, and they stand alike. -/
  registry_eq : s.registry = t.registry
  active_eq : s.active = t.active
  pending?_eq : s.pending? = t.pending?
  deadline?_eq : s.deadline? = t.deadline?
  serial?_eq : s.serial? = t.serial?.map (· + serials)
  activations_eq : s.activations = t.activations + activations

theorem ahead_advance (s : Spotlight) :
    Ahead serials activations (s.advance serials activations) s where
  settings_eq := rfl
  registry_eq := rfl
  active_eq := rfl
  pending?_eq := pending?_advance
  deadline?_eq := Alarm.deadline?_advance
  serial?_eq := Alarm.serial?_advance
  activations_eq := rfl

/-- The same call with the same answer, up to the serial number that it tells, on a spotlight
that is ahead. -/
structure Record.Ahead (serials activations : Nat) (r q : Record) : Prop where
  call_eq : r.call = q.call
  answer_eq : r.answer = q.answer.map (Transition.renumber serials)
  state_ahead : Spotlight.Ahead serials activations r.state q.state

/-- A run from a spotlight whose numbers are ahead answers and shows the same, call by call. -/
theorem journal_advance (s : Spotlight) (calls : List Operation) :
    List.Forall₂ (Record.Ahead serials activations)
      ((s.advance serials activations).journal calls) (s.journal calls) := by
  induction calls generalizing s with
  | nil => exact List.Forall₂.nil
  | cons call rest ih =>
      rw [journal_cons, journal_cons, perform_advance]
      exact List.Forall₂.cons ⟨rfl, rfl, ahead_advance _⟩ (ih _)

/-! ## Registering in any order -/

/-- No key that names no region is ever registered. -/
theorem isNull_of_isRegistered_perform {call : Operation}
    (hs : ∀ key, s.isRegistered key = true → key.isNull = false) {key : RegionKey}
    (h : (s.perform call).2.isRegistered key = true) : key.isNull = false := by
  rcases isRegistered_of_perform h with rfl | hold
  · cases hnull : key.isNull with
    | false => rfl
    | true =>
        have hignored : s.register key = s := by
          simp [register, Registry.insert, hnull]
        rw [perform, hignored] at h
        exact hnull.symm.trans (hs key h)
  · exact hs key hold

theorem isNull_of_isRegistered_run (settings : Settings) (calls : List Operation) :
    ∀ key, (({ settings } : Spotlight).run calls).isRegistered key = true →
      key.isNull = false := by
  refine List.foldlRecOn (motive := fun s : Spotlight =>
    ∀ key, s.isRegistered key = true → key.isNull = false) calls _ ?_ ?_
  · intro key hregistered
    cases hregistered
  · intro s hs call _ key
    exact isNull_of_isRegistered_perform hs

/-- Registering keys of different slots, in any order and as often as one likes, adds exactly
these keys. -/
theorem isRegistered_run_registrations_iff {keys : List RegionKey}
    (hnull : ∀ key ∈ keys, key.isNull = false)
    (hslots : ∀ key ∈ keys, ∀ other, other ∈ keys ∨ s.isRegistered other = true →
      other.index = key.index → other = key) (key : RegionKey) :
    (s.run (keys.map .register)).isRegistered key = true ↔
      key ∈ keys ∨ s.isRegistered key = true := by
  induction keys generalizing s with
  | nil => simp
  | cons first rest ih =>
      obtain ⟨hfirst, hrest⟩ := List.forall_mem_cons.mp hnull
      have hentered (other : RegionKey) : (s.register first).isRegistered other = true ↔
          other = first ∨ s.isRegistered other = true :=
        isRegistered_register_iff hfirst fun other hother =>
          hslots first List.mem_cons_self other (Or.inr hother)
      rw [List.map_cons, run_cons, perform, ih hrest, hentered, List.mem_cons, or_assoc,
        or_left_comm]
      intro key hkey other hother
      rw [hentered, or_left_comm, ← or_assoc, ← List.mem_cons] at hother
      exact hslots key (List.mem_cons_of_mem first hkey) other hother

/-- Registering changes the registry only. -/
theorem run_registrations_eq (s : Spotlight) (keys : List RegionKey) :
    s.run (keys.map .register) =
      { s with registry := (s.run (keys.map .register)).registry } := by
  induction keys generalizing s with
  | nil => rfl
  | cons key rest ih =>
      rw [List.map_cons, run_cons, perform, ih, register_eq]

/-- Registering marks nobody in a new spotlight. -/
theorem Blank.run_registrations (h : Blank s) (keys : List RegionKey) :
    Blank (s.run (keys.map .register)) := by
  induction keys generalizing s with
  | nil => exact h
  | cons key rest ih => exact ih (h.register key)

/-! ## After a reset -/

/-- A spotlight that has been reset is a new one with the same regions registered, but for its
numbers, which are ahead. -/
theorem reset_eq_advance {keys : List RegionKey}
    (hsame : ∀ key, (({ settings := s.settings } : Spotlight).run
      (keys.map .register)).isRegistered key = s.isRegistered key) :
    s.reset = (({ settings := s.settings } : Spotlight).run (keys.map .register)).advance
      s.alarm.issued s.activations := by
  have hblank := (blank_fresh s.settings).run_registrations keys
  have hregistry : (({ settings := s.settings } : Spotlight).run
      (keys.map .register)).registry = s.reset.registry := by
    apply registry_eq_of_highlight_eq
    · apply registered_eq_of_isRegistered_eq
      intro key
      rw [hsame, isRegistered_reset]
    · intro key
      rw [hblank.highlight_eq, highlight_reset]
  rw [run_registrations_eq, hregistry]
  simp [advance, Alarm.advance, reset, Alarm.disarm]

/-- Whatever run has led to a spotlight, whichever regions were pushed out of its registry and
whichever calls failed: once it has been reset it shows what a new spotlight with the same
settings shows, in which the same regions have been registered, in any order.  So it stays
over every later run: each call answers the same and leaves the same highlights, holder,
pending change and deadline.  Only the serial numbers and the count of activations are ahead,
by as much as was used up before the reset. -/
theorem reset_matches_fresh (settings : Settings) (history : List Operation)
    {keys : List RegionKey}
    (hkeys : ∀ key, key ∈ keys ↔
      (({ settings } : Spotlight).run history).isRegistered key = true)
    (calls : List Operation) :
    let s := ({ settings } : Spotlight).run history
    let fresh := ({ settings := s.settings } : Spotlight).run (keys.map .register)
    Ahead s.alarm.issued s.activations s.reset fresh ∧
      List.Forall₂ (Record.Ahead s.alarm.issued s.activations)
        (s.reset.journal calls) (fresh.journal calls) := by
  intro s fresh
  have hnull : ∀ key ∈ keys, key.isNull = false := fun key hkey =>
    isNull_of_isRegistered_run settings history key ((hkeys key).mp hkey)
  have hslots : ∀ key ∈ keys, ∀ other,
      other ∈ keys ∨ ({ settings := s.settings } : Spotlight).isRegistered other = true →
      other.index = key.index → other = key := by
    intro key hkey other hother hindex
    have hregistered : s.isRegistered other = true :=
      hother.elim (hkeys other).mp fun hnone => absurd hnone nofun
    exact Registry.eq_of_index_eq hregistered ((hkeys key).mp hkey) hindex
  have hsame : ∀ key, fresh.isRegistered key = s.isRegistered key := by
    intro key
    rw [Bool.eq_iff_iff, isRegistered_run_registrations_iff hnull hslots, ← hkeys]
    exact or_iff_left nofun
  rw [reset_eq_advance hsame]
  exact ⟨ahead_advance fresh, journal_advance fresh calls⟩

/-- A region is left marked by a request that failed, and the holder of the highlight has been
pushed out of the registry.  After a reset the marked region asks for the highlight and gets
it as in a new spotlight; only the serial number that it is told is the third one and not the
first. -/
theorem reset_matches_fresh_after_failure :
    let first : RegionKey := .fresh 1
    let second : RegionKey := .fresh 2
    let history : List Operation :=
      [.register first, .register second, .activate first, .activateLater second 0,
        .register first.renewed, .configure ⟨0x8000000000000000 * 1000000000⟩,
        .activateLater second 10, .configure {}]
    let keys := [second, first.renewed]
    let calls : List Operation := [.activateLater second 20, .tick 100000020]
    let s := ({} : Spotlight).run history
    let fresh := ({ settings := s.settings } : Spotlight).run (keys.map .register)
    (∀ key, key ∈ keys ↔ s.isRegistered key = true) ∧
      (s.highlight second = .pendingActive ∧ s.pending? = none ∧ s.active = some first) ∧
      (s.alarm.issued = 2 ∧ s.activations = 1) ∧
      Ahead 2 1 s.reset fresh ∧
      List.Forall₂ (Record.Ahead 2 1) (s.reset.journal calls) (fresh.journal calls) ∧
      (s.reset.journal calls).map Record.transition =
        [.scheduled (.activate second) 3, .activated second none] := by
  intro first second history keys calls s fresh
  have hregistered : s.registered = keys.reverse := by decide
  have hkeys : ∀ key, key ∈ keys ↔ s.isRegistered key = true := by
    intro key
    rw [← List.mem_reverse, ← hregistered]
    exact Registry.mem_keys_iff
  have hissued : s.alarm.issued = 2 := by decide
  have hcount : s.activations = 1 := by decide
  have hmatch := reset_matches_fresh {} history hkeys calls
  rw [← hissued, ← hcount]
  exact ⟨hkeys, by decide, ⟨rfl, rfl⟩, hmatch.1, hmatch.2, by decide⟩

end Spotlight

end NestedHover
