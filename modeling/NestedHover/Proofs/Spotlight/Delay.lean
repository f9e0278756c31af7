import NestedHover.Proofs.Spotlight.Journal
import NestedHover.Proofs.Spotlight.Registrations

/-!
# Waiting without opposition

A delayed request that nobody opposes does in the end what it would have done at once.
Nobody opposes it while the calls before its deadline are neutral: time passes but does not
reach the deadline, settings change, regions enter the registry without pushing others out,
other regions leave it, and requests come from regions that are not registered.

The two runs that are compared, with and without the delay, go through different states.
They have the same registered regions all along, and they end with the same holder of the
highlight and nothing pending; being coherent, they end with the same registry.

Main results:

- Theorem {lit}`unmoved_run`: neutral calls answer nothing and leave what is armed, who
  waits for it, and the count of activations.
- Theorem {lit}`alike_of_waiting`: a delayed activation ends as one at once does.
- Theorem {lit}`unopposed_eq_immediate`: this for every state that an orderly run reaches,
  with what can be seen in the meantime, and the same for delayed deactivations.
-/

namespace NestedHover

namespace Spotlight

variable {s t u : Spotlight} {region : RegionKey} {now later deadline : Instant}
  {call : Operation} {calls : List Operation}

/-! ## Neutral calls -/

/-- A call that neither opposes what waits for a deadline about a region nor helps it. -/
def IsNeutral (region : RegionKey) (deadline : Instant) (s : Spotlight) : Operation → Prop
  | .configure _ => True
  | .register key => s.evicts (.register key) = false
  | .deregister key => key ≠ region
  | .activate key => s.isRegistered key = false
  | .activateLater key _ => s.isRegistered key = false
  | .deactivateLater key _ => s.isRegistered key = false
  | .tick now => now < deadline
  | .reset => False

instance decidableIsNeutral (region : RegionKey) (deadline : Instant) (s : Spotlight) :
    ∀ call, Decidable (IsNeutral region deadline s call)
  | .configure _ => inferInstanceAs (Decidable True)
  | .register _ => inferInstanceAs (Decidable (_ = _))
  | .deregister _ => inferInstanceAs (Decidable (_ ≠ _))
  | .activate _ => inferInstanceAs (Decidable (_ = _))
  | .activateLater _ _ => inferInstanceAs (Decidable (_ = _))
  | .deactivateLater _ _ => inferInstanceAs (Decidable (_ = _))
  | .tick now => inferInstanceAs (Decidable (now < deadline))
  | .reset => inferInstanceAs (Decidable False)

theorem IsNeutral.isOrderly (h : IsNeutral region deadline s call) : s.IsOrderly call := by
  cases call with
  | configure settings => exact ⟨rfl, rfl⟩
  | register key => exact ⟨rfl, h⟩
  | deregister key => exact ⟨rfl, rfl⟩
  | activate key => exact ⟨rfl, rfl⟩
  | activateLater key now =>
      refine ⟨?_, rfl⟩
      rw [perform, activateLater_of_not_registered h]
      rfl
  | deactivateLater key now =>
      refine ⟨?_, rfl⟩
      rw [perform, deactivateLater_of_not_registered h]
      rfl
  | tick now => exact ⟨rfl, rfl⟩
  | reset => exact h.elim

/-- Whether a call is neutral depends on the registered regions. -/
theorem IsNeutral.congr (hregistered : s.registered = t.registered)
    (h : IsNeutral region deadline s call) : IsNeutral region deadline t call := by
  cases call with
  | register key => exact (evicts_congr hregistered _).symm.trans h
  | activate key => exact (isRegistered_congr hregistered key).symm.trans h
  | activateLater key now => exact (isRegistered_congr hregistered key).symm.trans h
  | deactivateLater key now => exact (isRegistered_congr hregistered key).symm.trans h
  | _ => exact h

/-- Calls that are neutral along a run are neutral along every run that starts with the same
registered regions. -/
theorem along_isNeutral_congr (hregistered : s.registered = t.registered)
    (h : Along step (IsNeutral region deadline) s calls) :
    Along step (IsNeutral region deadline) t calls :=
  along_transfer (R := fun s t => s.registered = t.registered)
    (fun _ _ call hsame => registered_perform_congr hsame call)
    (fun _ _ _ hsame hcall => hcall.congr hsame) hregistered h

theorem Coherent.run_of_neutral (h : Coherent s)
    (hneutral : Along step (IsNeutral region deadline) s calls) : Coherent (s.run calls) :=
  h.run (along_mono (fun _ _ hcall => hcall.isOrderly) hneutral)

/-! ## What neutral calls leave -/

/-- Whether nothing is armed but a change about a region, due at a deadline. -/
def Reserved (region : RegionKey) (deadline : Instant) (s : Spotlight) : Prop :=
  ∀ entry, s.alarm.armed = some entry →
    entry.payload.region = region ∧ entry.deadline = deadline

/-- What a region that waits for a deadline does not notice: the alarm, the count of
activations, and whether it holds the highlight are as before. -/
structure Unmoved (region : RegionKey) (s t : Spotlight) : Prop where
  alarm_eq : t.alarm = s.alarm
  activations_eq : t.activations = s.activations
  active_iff : t.active = some region ↔ s.active = some region

theorem Unmoved.refl (region : RegionKey) (s : Spotlight) : Unmoved region s s :=
  ⟨rfl, rfl, Iff.rfl⟩

theorem Unmoved.trans (hst : Unmoved region s t) (htu : Unmoved region t u) :
    Unmoved region s u where
  alarm_eq := htu.alarm_eq.trans hst.alarm_eq
  activations_eq := htu.activations_eq.trans hst.activations_eq
  active_iff := htu.active_iff.trans hst.active_iff

theorem Unmoved.reserved (h : Unmoved region s t) (hreserved : Reserved region deadline s) :
    Reserved region deadline t := by
  intro entry hentry
  exact hreserved entry (h.alarm_eq ▸ hentry)

/-- Nothing is due before the deadline that is reserved. -/
theorem Reserved.due?_eq_none (h : Reserved region deadline s) (hearly : now < deadline) :
    s.alarm.due? now = none := by
  apply due?_eq_none_of_lt
  intro due hdue
  obtain ⟨entry, hentry, rfl⟩ := Option.map_eq_some_iff.mp hdue
  exact (h entry hentry).2 ▸ hearly

/-- Forgetting another region goes unnoticed. -/
theorem Reserved.unmoved_deregister (h : Reserved region deadline s) {key : RegionKey}
    (hother : key ≠ region) : Unmoved region s (s.deregister key) where
  alarm_eq := by
    apply alarm_deregister
    intro entry hentry hkey
    exact hother (hkey.symm.trans (h entry hentry).1)
  activations_eq := rfl
  active_iff := by
    rw [active_deregister_eq_some_iff]
    exact and_iff_left hother.symm

/-- A neutral call answers nothing and goes unnoticed. -/
theorem IsNeutral.unmoved (h : IsNeutral region deadline s call)
    (hreserved : Reserved region deadline s) :
    (s.perform call).1 = .ok .none ∧ Unmoved region s (s.perform call).2 := by
  cases call with
  | configure settings => exact ⟨rfl, rfl, rfl, Iff.rfl⟩
  | register key =>
      refine ⟨rfl, alarm_register s key, activations_register s key, ?_⟩
      rw [perform, active_register]
  | deregister key => exact ⟨rfl, hreserved.unmoved_deregister h⟩
  | activate key =>
      rw [perform, activate_of_not_registered h]
      exact ⟨rfl, .refl region s⟩
  | activateLater key now =>
      rw [perform, activateLater_of_not_registered h]
      exact ⟨rfl, .refl region s⟩
  | deactivateLater key now =>
      rw [perform, deactivateLater_of_not_registered h]
      exact ⟨rfl, .refl region s⟩
  | tick now =>
      rw [perform, tick_of_due?_eq_none (hreserved.due?_eq_none h)]
      exact ⟨rfl, .refl region s⟩
  | reset => exact h.elim

/-- Neutral calls answer nothing and go unnoticed. -/
theorem unmoved_run (hreserved : Reserved region deadline s)
    (hneutral : Along step (IsNeutral region deadline) s calls) :
    (∀ record ∈ s.journal calls, record.answer = .ok .none) ∧
      Unmoved region s (s.run calls) := by
  induction calls generalizing s with
  | nil => exact ⟨List.forall_mem_nil _, .refl region s⟩
  | cons call rest ih =>
      obtain ⟨hcall, hrest⟩ := hneutral
      obtain ⟨hanswer, hstill⟩ := hcall.unmoved hreserved
      obtain ⟨hanswers, hstays⟩ := ih (hstill.reserved hreserved) hrest
      exact ⟨List.forall_mem_cons.mpr ⟨hanswer, hanswers⟩, hstill.trans hstays⟩

/-! ## Setting the alarm -/

theorem reserved_activate (hregistered : s.isRegistered region = true)
    (deadline : Instant) : Reserved region deadline (s.activate region).2 := by
  intro entry hentry
  rw [alarm_activate hregistered] at hentry
  cases hentry

theorem reserved_activateLater (hregistered : s.isRegistered region = true)
    (now : Instant) :
    Reserved region (now + (s.settings.activationDelay : Int))
      (s.activateLater region now).2 := by
  intro entry hentry
  rcases armed_activateLater hregistered now with hidle | ⟨serial, harmed⟩
  · cases hidle.symm.trans hentry
  · cases harmed.symm.trans hentry
    exact ⟨rfl, rfl⟩

theorem reserved_deactivateLater (hregistered : s.isRegistered region = true)
    (now : Instant) :
    Reserved region (now + (s.settings.activationDelay : Int))
      (s.deactivateLater region now).2 := by
  intro entry hentry
  rcases armed_deactivateLater hregistered now with ⟨-, hidle⟩ | ⟨-, serial, harmed⟩
  · cases hidle.symm.trans hentry
  · cases harmed.symm.trans hentry
    exact ⟨rfl, rfl⟩

/-- A delayed activation of a region that does not hold the highlight is armed, if the end
of the delay has an instant. -/
theorem armed_activateLater_of_lt (hregistered : s.isRegistered region = true)
    (hactive : s.active ≠ some region)
    (hclock : now + (s.settings.activationDelay : Int) < Instant.bound) :
    ∃ serial, (s.activateLater region now).2.alarm.armed =
      some ⟨serial, now + (s.settings.activationDelay : Int), .activate region⟩ := by
  have hpending := pending?_activateLater_of_isOk hregistered
    (isOk_activateLater hclock region)
  rw [if_neg hactive] at hpending
  rcases armed_activateLater hregistered now with hidle | harmed
  · simp [pending?, Alarm.payload?, hidle] at hpending
  · exact harmed

/-- A delayed deactivation is armed, if the end of the delay has an instant. -/
theorem armed_deactivateLater_of_lt (hregistered : s.isRegistered region = true)
    (hclock : now + (s.settings.activationDelay : Int) < Instant.bound) :
    ∃ serial, (s.deactivateLater region now).2.alarm.armed =
      some ⟨serial, now + (s.settings.activationDelay : Int), .deactivate region⟩ := by
  have hok := isOk_deactivateLater hclock region
  rcases armed_deactivateLater hregistered now with ⟨herror, -⟩ | ⟨-, harmed⟩
  · rw [herror] at hok
    cases hok
  · exact harmed

/-- What is armed is due once its deadline is reached. -/
theorem due?_of_armed {serial : Nat} {pending : Pending}
    (h : s.alarm.armed = some ⟨serial, deadline, pending⟩) (hlater : deadline ≤ later) :
    s.alarm.due? later = some pending :=
  Alarm.due?_eq_some_iff.mpr ⟨_, h, hlater, rfl⟩

/-! ## The deadline -/

/-- The activation of a region that does not hold the highlight takes effect and is
told. -/
theorem tick_activate (hdue : s.alarm.due? later = some (.activate region))
    (hregistered : s.isRegistered region = true) (hactive : s.active ≠ some region) :
    (s.tick later).1 = .activated region s.active ∧
      (s.tick later).2.active = some region ∧
      (s.tick later).2.activations = s.activations + 1 := by
  rw [tick_of_due?_activate hdue hregistered, active_activateNow, activations_activateNow]
  simp [activateNow, hactive]

/-- The deactivation of the holder of the highlight takes effect and is told. -/
theorem tick_deactivate (hdue : s.alarm.due? later = some (.deactivate region))
    (hactive : s.active = some region) :
    (s.tick later).1 = .deactivated region ∧ (s.tick later).2.active = none := by
  simp [tick, hdue, hactive]

/-- Spotlights look the same if the same regions are registered and stand the same way, the
same one holds the highlight, the same change is pending, and as many activations were
counted. -/
structure Alike (s t : Spotlight) : Prop where
  registry_eq : s.registry = t.registry
  active_eq : s.active = t.active
  pending?_eq : s.pending? = t.pending?
  activations_eq : s.activations = t.activations

/-- Coherent states look the same as soon as they agree on all but how regions stand. -/
theorem Coherent.alike (hs : Coherent s) (ht : Coherent t)
    (hregistered : s.registered = t.registered) (hactive : s.active = t.active)
    (hpending : s.pending? = t.pending?) (hcount : s.activations = t.activations) :
    Alike s t :=
  ⟨hs.registry_eq ht hregistered hactive hpending, hactive, hpending, hcount⟩

/-- An activation at once is not undone by neutral calls. -/
theorem run_activate (hregistered : s.isRegistered region = true)
    (hneutral : Along step (IsNeutral region deadline) (s.activate region).2 calls) :
    ((s.activate region).2.run calls).active = some region ∧
      ((s.activate region).2.run calls).pending? = none ∧
      ((s.activate region).2.run calls).activations =
        if s.active = some region then s.activations else s.activations + 1 := by
  obtain ⟨-, hstill⟩ := unmoved_run (reserved_activate hregistered deadline) hneutral
  refine ⟨hstill.active_iff.mpr (active_activate hregistered), ?_, ?_⟩
  · rw [pending?, hstill.alarm_eq, alarm_activate hregistered]
    rfl
  · rw [hstill.activations_eq, activations_activate hregistered]

/-! ## From the request to the deadline -/

section Unopposed

-- a request at an instant from which the delay ends before the last instant, and a tick at
-- the deadline or later
variable (h : Coherent s) (hregistered : s.isRegistered region = true)
  (hclock : now + (s.settings.activationDelay : Int) < Instant.bound)
  (hlater : now + (s.settings.activationDelay : Int) ≤ later)

include h hregistered hclock hlater

/-- A delayed activation has taken effect once its deadline is reached after neutral
calls. -/
theorem tick_run_activateLater
    (hneutral : Along step (IsNeutral region (now + (s.settings.activationDelay : Int)))
      (s.activateLater region now).2 calls) :
    let before := (s.activateLater region now).2.run calls
    (before.tick later).2.active = some region ∧
      (before.tick later).2.pending? = none ∧
      (before.tick later).2.activations =
        if s.active = some region then s.activations else s.activations + 1 := by
  intro before
  obtain ⟨-, hstill⟩ := unmoved_run (reserved_activateLater hregistered now) hneutral
  have hcount : before.activations = s.activations := by
    rw [hstill.activations_eq, activations_activateLater]
  have hholder : before.active = some region ↔ s.active = some region := by
    rw [hstill.active_iff, active_activateLater]
  by_cases hactive : s.active = some region
  · -- the region holds the highlight already, and nothing is armed
    have hidle : before.alarm.armed = none := by
      rw [hstill.alarm_eq, activateLater_of_active hregistered hactive]
      simp
    have hdue : before.alarm.due? later = none := by simp [Alarm.due?, hidle]
    rw [tick_of_due?_eq_none hdue, if_pos hactive]
    exact ⟨hholder.mpr hactive, by simp [pending?, Alarm.payload?, hidle], hcount⟩
  · obtain ⟨serial, harmed⟩ := armed_activateLater_of_lt hregistered hactive hclock
    have hdue : before.alarm.due? later = some (.activate region) :=
      due?_of_armed (hstill.alarm_eq ▸ harmed) hlater
    have hbefore : Coherent before :=
      (h.activateLater (isOk_activateLater hclock region)).run_of_neutral hneutral
    obtain ⟨-, hafter, hcounted⟩ := tick_activate hdue
      (hbefore.pending_registered (pending?_of_due? hdue)) (mt hholder.mp hactive)
    refine ⟨hafter, ?_, ?_⟩
    · simp [pending?_tick, hdue]
    · rw [hcounted, hcount, if_neg hactive]

/-- A delayed activation ends as one at once does, if only neutral calls are made before
its deadline. -/
theorem alike_of_waiting
    (hneutral : Along step (IsNeutral region (now + (s.settings.activationDelay : Int)))
      (s.activateLater region now).2 calls) :
    Alike (((s.activateLater region now).2.run calls).tick later).2
      ((s.activate region).2.run calls) := by
  have hsame : (s.activateLater region now).2.registered =
      (s.activate region).2.registered := by
    rw [registered_activateLater, registered_activate]
  have hprompt := along_isNeutral_congr hsame hneutral
  obtain ⟨hactive, hpending, hcount⟩ := run_activate hregistered hprompt
  obtain ⟨hactive', hpending', hcount'⟩ :=
    tick_run_activateLater h hregistered hclock hlater hneutral
  have hlate := (h.activateLater (isOk_activateLater hclock region)).run_of_neutral hneutral
  apply (hlate.tick later).alike ((h.activate region).run_of_neutral hprompt)
  · rw [registered_tick, registered_run_congr hsame]
  · rw [hactive', hactive]
  · rw [hpending', hpending]
  · rw [hcount', hcount]

/-- While a region that does not hold the highlight waits for it, the alarm stays as it was
set, nothing is answered, and at the deadline the region is told to have it. -/
theorem watch_waiting (hactive : s.active ≠ some region)
    (hneutral : Along step (IsNeutral region (now + (s.settings.activationDelay : Int)))
      (s.activateLater region now).2 calls) :
    let waiting := (s.activateLater region now).2
    (waiting.run calls).pending? = some (.activate region) ∧
      (waiting.run calls).deadline? = some (now + (s.settings.activationDelay : Int)) ∧
      (waiting.run calls).serial? = waiting.serial? ∧
      ((waiting.run calls).tick later).1 = .activated region (waiting.run calls).active := by
  intro waiting
  obtain ⟨-, hstill⟩ := unmoved_run (reserved_activateLater hregistered now) hneutral
  obtain ⟨serial, harmed⟩ := armed_activateLater_of_lt hregistered hactive hclock
  have hdue := due?_of_armed (hstill.alarm_eq ▸ harmed) hlater
  have hbefore : Coherent (waiting.run calls) :=
    (h.activateLater (isOk_activateLater hclock region)).run_of_neutral hneutral
  have hpending := pending?_of_due? hdue
  refine ⟨hpending, ?_, ?_, ?_⟩
  · rw [deadline?, hstill.alarm_eq, Alarm.deadline?, harmed]
    rfl
  · rw [serial?, hstill.alarm_eq, serial?]
  · exact (tick_activate hdue (hbefore.pending_registered hpending)
      (hbefore.active_ne_of_pending hpending)).1

/-- At the deadline of a delayed deactivation its region loses the highlight, if it held it,
and nobody is shown; otherwise nothing happens to any region. -/
theorem tick_run_deactivateLater
    (hneutral : Along step (IsNeutral region (now + (s.settings.activationDelay : Int)))
      (s.deactivateLater region now).2 calls) :
    let before := (s.deactivateLater region now).2.run calls
    (s.active = some region → (before.tick later).1 = .deactivated region ∧
        ∀ key, ((before.tick later).2.highlight key).isShown = false) ∧
      (s.active ≠ some region → (before.tick later).1 = .none ∧
        (before.tick later).2.registry = before.registry) := by
  intro before
  obtain ⟨serial, harmed⟩ := armed_deactivateLater_of_lt hregistered hclock
  obtain ⟨-, hstill⟩ := unmoved_run (reserved_deactivateLater hregistered now) hneutral
  have hdue : before.alarm.due? later = some (.deactivate region) :=
    due?_of_armed (hstill.alarm_eq ▸ harmed) hlater
  have hholder : before.active = some region ↔ s.active = some region := by
    rw [hstill.active_iff, active_deactivateLater]
  constructor
  · intro hactive
    have hbefore : Coherent before :=
      (h.deactivateLater (isOk_deactivateLater hclock region)).run_of_neutral hneutral
    obtain ⟨htold, hlost⟩ := tick_deactivate hdue (hholder.mpr hactive)
    refine ⟨htold, ?_⟩
    intro key
    rw [← Bool.not_eq_true, (hbefore.tick later).isShown_iff, hlost]
    exact nofun
  · intro hactive
    rw [tick_of_due?_deactivate_of_not_active hdue (mt hholder.mp hactive)]
    exact ⟨rfl, rfl⟩

end Unopposed

/-! ## Every state that an orderly run reaches -/

/-- In every state that an orderly run reaches from a fresh spotlight, and for every
registered region and every instant from which the delay ends before the last instant:

a delayed activation, neutral calls and a tick at the deadline or later end as the
activation at once and the same calls do; if the region does not hold the highlight in the
beginning, then after each of the calls its activation is pending with the same deadline
and serial number, none of them answers anything, and the tick tells of the activation;

a delayed deactivation, neutral calls and a tick at the deadline or later take the highlight
from the region, tell so, and leave nobody shown, if the region holds the highlight in the
beginning; otherwise the tick answers nothing and leaves every region as it stands. -/
theorem unopposed_eq_immediate (settings : Settings) {history : List Operation}
    (horderly : Along step IsOrderly { settings } history) (region : RegionKey)
    (now later : Instant) :
    let s := ({ settings } : Spotlight).run history
    let deadline := now + (s.settings.activationDelay : Int)
    s.isRegistered region = true → deadline < Instant.bound → deadline ≤ later →
      (∀ calls, let waiting := (s.activateLater region now).2
        Along step (IsNeutral region deadline) waiting calls →
          Alike ((waiting.run calls).tick later).2 ((s.activate region).2.run calls) ∧
          (s.active ≠ some region →
            (∀ made, made <+: calls →
              (waiting.run made).pending? = some (.activate region) ∧
              (waiting.run made).deadline? = some deadline ∧
              (waiting.run made).serial? = waiting.serial?) ∧
            (∀ record ∈ waiting.journal calls, record.answer = .ok .none) ∧
            ((waiting.run calls).tick later).1 =
              .activated region (waiting.run calls).active)) ∧
      ∀ calls, let waiting := (s.deactivateLater region now).2
        Along step (IsNeutral region deadline) waiting calls →
          (s.active = some region →
            ((waiting.run calls).tick later).1 = .deactivated region ∧
            ∀ key, (((waiting.run calls).tick later).2.highlight key).isShown = false) ∧
          (s.active ≠ some region →
            ((waiting.run calls).tick later).1 = .none ∧
            ((waiting.run calls).tick later).2.registry = (waiting.run calls).registry) := by
  intro s deadline hregistered hclock hlater
  have h : Coherent s := (blank_fresh settings).coherent.run horderly
  constructor
  · intro calls waiting hneutral
    refine ⟨alike_of_waiting h hregistered hclock hlater hneutral, ?_⟩
    intro hactive
    refine ⟨?_, ?_, ?_⟩
    · intro made hmade
      obtain ⟨hpending, hdeadline, hserial, -⟩ := watch_waiting h hregistered hclock hlater
        hactive (along_of_isPrefix hmade hneutral)
      exact ⟨hpending, hdeadline, hserial⟩
    · exact (unmoved_run (reserved_activateLater hregistered now) hneutral).1
    · exact (watch_waiting h hregistered hclock hlater hactive hneutral).2.2.2
  · intro calls waiting hneutral
    exact tick_run_deactivateLater h hregistered hclock hlater hneutral

/-- While the second region waits for the highlight the first one, which is about to lose
it, leaves the registry, and the delay is set to nothing; and the first region loses the
highlight at its own deadline after the second has left. -/
theorem unopposed_through_departure :
    let first : RegionKey := .fresh 1
    let second : RegionKey := .fresh 2
    let s := ({} : Spotlight).run
      [.register first, .register second, .activate first, .deactivateLater first (-50000000)]
    let deadline : Instant := 0 + (s.settings.activationDelay : Int)
    let calls : List Operation :=
      [.tick 50000000, .register (.fresh 3), .deregister first, .configure ⟨0⟩,
        .activateLater (.fresh 9) 10, .tick 99999999]
    let departure : List Operation := [.deregister second, .tick 99999999]
    let waiting := (s.activateLater second 0).2
    let losing := (s.deactivateLater first 0).2
    Along step (IsNeutral second deadline) waiting calls ∧
      Along step (IsNeutral first deadline) losing departure ∧
      Alike ((waiting.run calls).tick deadline).2 ((s.activate second).2.run calls) ∧
      ((waiting.run calls).tick deadline).1 = .activated second (waiting.run calls).active ∧
      ((losing.run departure).tick deadline).1 = .deactivated first := by
  intro first second s deadline calls departure waiting losing
  have horderly : Along step IsOrderly {} [.register first, .register second,
      .activate first, .deactivateLater first (-50000000)] := by decide
  have hclock : deadline < Instant.bound := by decide
  have hwaiting : Along step (IsNeutral second deadline) waiting calls := by decide
  have hlosing : Along step (IsNeutral first deadline) losing departure := by decide
  obtain ⟨hsecond, -⟩ := unopposed_eq_immediate {} horderly second 0 deadline (by decide)
    hclock (Int.le_refl deadline)
  obtain ⟨-, hfirst⟩ := unopposed_eq_immediate {} horderly first 0 deadline (by decide)
    hclock (Int.le_refl deadline)
  obtain ⟨halike, hwatch⟩ := hsecond calls hwaiting
  obtain ⟨hlost, -⟩ := hfirst departure hlosing
  exact ⟨hwaiting, hlosing, halike, (hwatch (by decide)).2.2,
    (hlost (by decide)).1⟩

end Spotlight

end NestedHover
