import NestedHover.Proofs.Spotlight.Exclusivity
import NestedHover.Proofs.Spotlight.Registrations
import NestedHover.Proofs.Spotlight.Ticking

/-!
# Activation at once

A region that takes the highlight at once leaves nothing of what came before.  The change that
was pending is cancelled, the region that held the highlight is hidden, and nobody else can
have been marked: as long as no delayed request has failed, a mark is either that of the
holder or that of the pending change, even on a region that has been pushed out of the
registry and has come back.  So the spotlight rests on the new holder, and all that can still
be seen of the past is who is registered, how often the highlight went to a new region, and
which serial numbers are used up.

Main results:

- Theorem {lit}`Credible.resting_activate`: an activation leaves the spotlight resting on its
  region.
- Theorem {lit}`Resting.registry_eq`: spotlights that rest on the same region, with the same
  regions registered, show the same.
- Theorem {lit}`Resting.run_ticks`: a resting spotlight stays as it is while time passes.
- Theorem {lit}`activate_erases_history`: all of this after any two runs of which no call fails.
-/

namespace NestedHover

namespace Spotlight

variable {s t : Spotlight} {region : RegionKey}

/-! ## Resting spotlights -/

/-- One region holds the highlight, all others are hidden, and nothing is pending. -/
structure Resting (s : Spotlight) (region : RegionKey) : Prop where
  active_eq : s.active = some region
  highlight_eq : ∀ key, s.highlight key = if key = region then .active else .hidden
  pending?_eq : s.pending? = none
  deadline?_eq : s.deadline? = none
  serial?_eq : s.serial? = none

/-- Time passes a resting spotlight by. -/
theorem Resting.tick (h : Resting s region) (now : Instant) : s.tick now = (.none, s) := by
  apply tick_of_due?_eq_none
  apply due?_eq_none_of_lt
  intro deadline hdeadline
  rw [h.deadline?_eq] at hdeadline
  cases hdeadline

/-- However often time is let pass, in whatever order, nothing comes of it. -/
theorem Resting.run_ticks (h : Resting s region) (ticks : List Instant) :
    s.run (ticks.map .tick) = s ∧ s.firings (ticks.map .tick) = [] :=
  run_ticks_of_idle fun now _ => h.tick now

/-- Spotlights that rest on the same region, with the same regions registered, show the
same. -/
theorem Resting.registry_eq (hs : Resting s region) (ht : Resting t region)
    (hregistered : s.registered = t.registered) : s.registry = t.registry := by
  apply registry_eq_of_highlight_eq hregistered
  intro key
  rw [hs.highlight_eq key, ht.highlight_eq key]

/-! ## Taking the highlight -/

/-- With nothing pending only the holder of the highlight is marked. -/
theorem Credible.highlight_eq_hidden (h : Credible s) (hidle : s.pending? = none)
    {key : RegionKey} (hother : s.active ≠ some key) : s.highlight key = .hidden := by
  refine Decidable.byContradiction fun hmark => ?_
  have hstands := h.highlight_eq key hmark
  rw [hidle, standing_eq_hidden hother (by simp)] at hstands
  exact hmark hstands

/-- An activation leaves the spotlight resting on its region, whoever held the highlight or
waited for it. -/
theorem Credible.resting_activate (h : Credible s)
    (hregistered : s.isRegistered region = true) : Resting (s.activate region).2 region := by
  have harmed : (s.activate region).2.alarm.armed = none := by
    rw [alarm_activate hregistered, Alarm.armed_disarm]
  refine ⟨active_activate hregistered, ?_, pending?_activate hregistered, ?_, ?_⟩
  · intro key
    rw [Spotlight.activate, if_pos hregistered, highlight_activateNow (by simpa)]
    by_cases hkey : key = region
    · rw [if_pos hkey, if_pos hkey]
    · rw [if_neg hkey, if_neg hkey]
      split
      · rfl
      · rename_i hother
        exact h.cancelPending.highlight_eq_hidden (pending?_cancelPending s) hother
  · rw [deadline?, Alarm.deadline?, harmed]
    rfl
  · rw [serial?, Alarm.serial?, harmed]
    rfl

/-- An activation answers that the highlight went to the region, and from whom, unless the
region held it already. -/
theorem fst_activate (hregistered : s.isRegistered region = true) :
    (s.activate region).1 =
      if s.active = some region then .none else .activated region s.active := by
  rw [activate, if_pos hregistered, activateNow, active_cancelPending]
  split
  · rfl
  · rfl

/-- What an activation brings about: the spotlight rests on the region from then on, and the
answer and the count tell whether the region is a new holder of the highlight. -/
structure TakesOver (s : Spotlight) (region : RegionKey) : Prop where
  resting : Resting (s.activate region).2 region
  run_ticks : ∀ ticks : List Instant,
    (s.activate region).2.run (ticks.map .tick) = (s.activate region).2 ∧
      (s.activate region).2.firings (ticks.map .tick) = []
  answer_eq : (s.activate region).1 =
    if s.active = some region then .none else .activated region s.active
  activations_eq : (s.activate region).2.activations =
    if s.active = some region then s.activations else s.activations + 1

theorem Credible.takesOver (h : Credible s) (hregistered : s.isRegistered region = true) :
    TakesOver s region where
  resting := h.resting_activate hregistered
  run_ticks := (h.resting_activate hregistered).run_ticks
  answer_eq := fst_activate hregistered
  activations_eq := activations_activate hregistered

/-- Two runs of which no call fails, whichever regions they push out of the registry, lead to
spotlights with the same regions registered.  If one of these regions takes the highlight at
once, it takes over from whatever either run has left, and both spotlights show the same. -/
theorem activate_erases_history {settings settings' : Settings} {calls calls' : List Operation}
    (hok : Along step Succeeds { settings } calls)
    (hok' : Along step Succeeds { settings := settings' } calls')
    (hsame : ∀ key, (({ settings } : Spotlight).run calls).isRegistered key =
      (({ settings := settings' } : Spotlight).run calls').isRegistered key)
    {region : RegionKey}
    (hregistered : (({ settings } : Spotlight).run calls).isRegistered region = true) :
    let s := ({ settings } : Spotlight).run calls
    let t := ({ settings := settings' } : Spotlight).run calls'
    TakesOver s region ∧ TakesOver t region ∧
      (s.activate region).2.registry = (t.activate region).2.registry := by
  intro s t
  have hs : TakesOver s region := ((blank_fresh settings).credible.run hok).takesOver hregistered
  have ht : TakesOver t region :=
    ((blank_fresh settings').credible.run hok').takesOver ((hsame region).symm.trans hregistered)
  refine ⟨hs, ht, hs.resting.registry_eq ht.resting ?_⟩
  rw [registered_activate, registered_activate]
  exact registered_eq_of_isRegistered_eq hsame

/-- In the first run a region holds the highlight while it is pushed out of the registry, comes
back, and asks to lose the highlight; in the second one another region waits for it.  After
that other region has taken the highlight both spotlights show the same, and time does not
change that. -/
theorem activate_erases_eviction :
    let first : RegionKey := .fresh 1
    let second : RegionKey := .fresh 2
    let calls : List Operation :=
      [.register first, .register second, .activate first, .register first.renewed,
        .activateLater first.renewed 0, .deregister first.renewed, .register first,
        .deactivateLater first 10]
    let calls' : List Operation :=
      [.register second, .configure ⟨30⟩, .register first, .activateLater second 20]
    let s := ({} : Spotlight).run calls
    let t := ({} : Spotlight).run calls'
    (Along step Succeeds {} calls ∧ Along step Succeeds {} calls') ∧
      ((s.activate second).1 = .activated second (some first) ∧
        (t.activate second).1 = .activated second none) ∧
      (s.activate second).2.registry = (t.activate second).2.registry ∧
      ((s.activate second).2.highlight first = .hidden ∧
        (s.activate second).2.run [.tick 10, .tick 100000000010] = (s.activate second).2) := by
  intro first second calls calls' s t
  have hok : Along step Succeeds {} calls := by decide
  have hok' : Along step Succeeds {} calls' := by decide
  have hregistered : s.isRegistered second = true := by decide
  have hsame : s.registered = t.registered := by decide
  have hactive : s.active = some first := by decide
  have hactive' : t.active = none := by decide
  obtain ⟨hs, ht, hregistry⟩ :=
    activate_erases_history hok hok' (isRegistered_congr hsame) hregistered
  refine ⟨⟨hok, hok'⟩, ⟨?_, ?_⟩, ?_, ?_, ?_⟩
  · rw [hs.answer_eq, hactive, if_neg (by decide)]
  · rw [ht.answer_eq, hactive', if_neg nofun]
  · rw [hregistry]
  · rw [hs.resting.highlight_eq, if_neg (by decide)]
  · exact (hs.run_ticks [10, 100000000010]).1

end Spotlight

end NestedHover
