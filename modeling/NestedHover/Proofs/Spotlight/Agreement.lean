import NestedHover.Proofs.Runs
import NestedHover.Proofs.Spotlight.Effects

/-!
# The three records of the highlight agree

A spotlight keeps the state of the highlight three times over: the highlight of
each registered region, the region that holds it, and the pending change.  Every
call updates them one by one.  Here they are shown to agree after every run in
which no delayed request fails and no region is pushed out of the registry by
another version of its slot.

The second record and the third determine the first: {lit}`standing` computes how
a region stands from them.  The invariant {lit}`Coherent` says that the first
record is what {lit}`standing` computes, that the other two name only registered
regions, and that a region waiting for the highlight does not hold it.

Main results:

- Theorem {lit}`Coherent.perform`: every call of such a run keeps the invariant.
- Theorem {lit}`Coherent.run`: so does the whole run.
- Theorem {lit}`records_agree_of_orderly`: the records agree in every state that
  such a run reaches from a fresh spotlight.
-/

namespace NestedHover

namespace Spotlight

/-! ## The invariant -/

/-- How a region stands, computed from the holder of the highlight and the pending
change. -/
def standing (active : Option RegionKey) (pending : Option Pending)
    (region : RegionKey) : Highlight :=
  if pending = some (.activate region) then .pendingActive
  else if active = some region then
    if pending = some (.deactivate region) then .pendingHidden else .active
  else .hidden

/-- The pending change concerns the standing of its own region only. -/
theorem standing_some_of_ne (active : Option RegionKey) {pending : Pending}
    {key : RegionKey} (hne : key ≠ pending.region) :
    standing active (some pending) key = standing active none key := by
  cases pending with
  | activate region =>
      have hother : ¬ region = key := fun e => hne e.symm
      simp [standing, hother]
  | deactivate region =>
      have hother : ¬ region = key := fun e => hne e.symm
      simp [standing, hother]

/-- A region that neither holds the highlight nor waits for it stands hidden. -/
theorem standing_eq_hidden {active : Option RegionKey} {pending : Option Pending}
    {key : RegionKey} (hactive : active ≠ some key)
    (hwaiting : pending ≠ some (.activate key)) : standing active pending key = .hidden := by
  rw [standing, if_neg hwaiting, if_neg hactive]

/-- Cancelling restores the standing of a region without the pending change. -/
theorem restored_standing {active : Option RegionKey} {pending : Option Pending}
    {key : RegionKey} (hwaiting : pending = some (.activate key) → active ≠ some key) :
    (if pending = some (.activate key) ∧ standing active pending key = .pendingActive then
        .hidden
      else if pending = some (.deactivate key) ∧
          standing active pending key = .pendingHidden then .active
      else standing active pending key) = standing active none key := by
  unfold standing
  by_cases hactivate : pending = some (.activate key)
  · simp [hactivate, hwaiting hactivate]
  · by_cases hdeactivate : pending = some (.deactivate key)
    · by_cases hactive : active = some key <;> simp [hdeactivate, hactive]
    · simp [hactivate, hdeactivate]

/-- The three records agree: every region stands as computed from the other two,
which name registered regions only. -/
structure Coherent (s : Spotlight) : Prop where
  active_registered : ∀ {region}, s.active = some region → s.isRegistered region = true
  pending_registered : ∀ {pending}, s.pending? = some pending →
    s.isRegistered pending.region = true
  active_ne_of_pending : ∀ {region}, s.pending? = some (.activate region) →
    s.active ≠ some region
  highlight_eq : ∀ key, s.highlight key = standing s.active s.pending? key

/-- All regions but the given one stand as if nothing were pending. -/
def QuietExcept (s : Spotlight) (region : RegionKey) : Prop :=
  ∀ key, key ≠ region → s.highlight key = standing s.active none key

variable {s : Spotlight}

/-- Nobody holds the highlight or is about to: nothing has happened yet but
registrations. -/
structure Blank (s : Spotlight) : Prop where
  active_eq : s.active = none
  pending?_eq : s.pending? = none
  highlight_eq : ∀ key, s.highlight key = .hidden

theorem blank_fresh (settings : Settings) : Blank { settings } where
  active_eq := rfl
  pending?_eq := rfl
  highlight_eq _ := rfl

/-- Registering leaves a blank spotlight blank, even where it pushes a region out of the
registry. -/
theorem Blank.register (h : Blank s) (region : RegionKey) : Blank (s.register region) where
  active_eq := by rw [active_register, h.active_eq]
  pending?_eq := by rw [pending?, alarm_register, ← pending?, h.pending?_eq]
  highlight_eq key := by
    cases hafter : (s.register region).isRegistered key with
    | false => exact highlight_of_not_registered hafter
    | true => rw [highlight_register_of_isRegistered hafter, h.highlight_eq key]

/-- A blank spotlight is coherent. -/
theorem Blank.coherent (h : Blank s) : Coherent s where
  active_registered hactive := absurd (h.active_eq.symm.trans hactive) nofun
  pending_registered hpending := absurd (h.pending?_eq.symm.trans hpending) nofun
  active_ne_of_pending hpending := absurd (h.pending?_eq.symm.trans hpending) nofun
  highlight_eq key := by
    rw [h.highlight_eq, h.active_eq, h.pending?_eq]
    rfl

/-- All regions but that of the pending change stand as if nothing were pending. -/
theorem Coherent.quietExcept (h : Coherent s) {pending : Pending}
    (hpending : s.pending? = some pending) : QuietExcept s pending.region := by
  intro key hkey
  rw [h.highlight_eq key, hpending, standing_some_of_ne s.active hkey]

/-- Without a pending change every region stands as if nothing were pending. -/
theorem Coherent.highlight_eq_of_idle (h : Coherent s) (hidle : s.pending? = none)
    (key : RegionKey) : s.highlight key = standing s.active none key := by
  rw [h.highlight_eq key, hidle]

/-! ## The steps shared by the calls -/

/-- Cancelling restores the agreement without the pending change. -/
theorem Coherent.cancelPending (h : Coherent s) : Coherent s.cancelPending where
  active_registered hactive := by
    rw [active_cancelPending] at hactive
    rw [isRegistered_cancelPending]
    exact h.active_registered hactive
  pending_registered hpending := by
    rw [pending?_cancelPending] at hpending
    cases hpending
  active_ne_of_pending hpending := by
    rw [pending?_cancelPending] at hpending
    cases hpending
  highlight_eq key := by
    rw [highlight_cancelPending, active_cancelPending, pending?_cancelPending,
      h.highlight_eq key]
    exact restored_standing h.active_ne_of_pending

/-- Giving the highlight to a region makes the records agree, however that region
stood before, as long as all others stand as if nothing were pending. -/
theorem coherent_activateNow {region : RegionKey}
    (hregistered : s.isRegistered region = true) (hidle : s.pending? = none)
    (hquiet : QuietExcept s region) : Coherent (s.activateNow region).2 where
  active_registered hactive := by
    rw [active_activateNow] at hactive
    cases hactive
    rwa [isRegistered_activateNow]
  pending_registered hpending := by
    rw [pending?, alarm_activateNow, ← pending?, hidle] at hpending
    cases hpending
  active_ne_of_pending hpending := by
    rw [pending?, alarm_activateNow, ← pending?, hidle] at hpending
    cases hpending
  highlight_eq key := by
    have hafter : (s.activateNow region).2.pending? = none := by
      rw [pending?, alarm_activateNow, ← pending?, hidle]
    rw [highlight_activateNow hregistered, active_activateNow, hafter]
    by_cases hkey : key = region
    · simp [hkey, standing]
    · have hne : ¬ region = key := fun e => hkey e.symm
      by_cases hactive : s.active = some key
      · simp [hkey, hactive, standing, hne]
      · simp [hkey, hactive, hquiet key hkey, standing, hne]

/-- Arming a change makes the records agree, if its region is marked accordingly
and all others stand as if nothing were pending. -/
theorem coherent_schedule {pending : Pending} {now : Instant}
    (hregistered : s.isRegistered pending.region = true)
    (hholder : ∀ {region}, s.active = some region → s.isRegistered region = true)
    (hne : ∀ {region}, pending = .activate region → s.active ≠ some region)
    (hmark : s.highlight pending.region = standing s.active (some pending) pending.region)
    (hquiet : QuietExcept s pending.region)
    (hok : (s.schedule pending now).1.isOk = true) :
    Coherent (s.schedule pending now).2 := by
  have hpending := pending?_schedule_of_isOk hok
  refine ⟨hholder, ?_, ?_, ?_⟩
  · intro other hother
    rw [hpending] at hother
    cases hother
    exact hregistered
  · intro region hregion
    rw [hpending] at hregion
    exact hne (Option.some.inj hregion)
  · intro key
    rw [highlight_schedule, active_schedule, hpending]
    by_cases hkey : key = pending.region
    · rw [hkey, hmark]
    · rw [hquiet key hkey, standing_some_of_ne s.active hkey]

/-! ## The calls -/

/-- Giving the highlight to a region at once keeps the agreement. -/
theorem Coherent.activate (h : Coherent s) (region : RegionKey) :
    Coherent (s.activate region).2 := by
  unfold Spotlight.activate
  split
  · rename_i hregistered
    refine coherent_activateNow (by simpa using hregistered)
      (pending?_cancelPending s) ?_
    intro key _
    exact h.cancelPending.highlight_eq_of_idle (pending?_cancelPending s) key
  · exact h

/-- A delayed activation that does not fail keeps the agreement. -/
theorem Coherent.activateLater (h : Coherent s) {region : RegionKey} {now : Instant}
    (hok : (s.activateLater region now).1.isOk = true) :
    Coherent (s.activateLater region now).2 := by
  cases hregistered : s.isRegistered region with
  | false => rwa [activateLater_of_not_registered hregistered]
  | true =>
      by_cases hactive : s.active = some region
      · rw [activateLater_of_active hregistered hactive]
        exact h.cancelPending
      · rw [activateLater_of_not_active hregistered hactive] at hok ⊢
        have hidle := h.cancelPending
        apply coherent_schedule _ _ _ _ _ hok
        · simpa using hregistered
        · intro holder hholder
          simpa using h.active_registered (by simpa using hholder)
        · intro other hother
          cases hother
          simpa using hactive
        · simp [highlight_setHighlight, hregistered, standing]
        · intro key hkey
          have hother : key ≠ region := hkey
          rw [highlight_setHighlight_of_ne _ hother, active_setHighlight]
          exact hidle.highlight_eq_of_idle (pending?_cancelPending s) key

/-- A delayed deactivation that does not fail keeps the agreement. -/
theorem Coherent.deactivateLater (h : Coherent s) {region : RegionKey} {now : Instant}
    (hok : (s.deactivateLater region now).1.isOk = true) :
    Coherent (s.deactivateLater region now).2 := by
  cases hregistered : s.isRegistered region with
  | false => rwa [deactivateLater_of_not_registered hregistered]
  | true =>
      rw [deactivateLater_of_registered hregistered] at hok ⊢
      have hidle := h.cancelPending
      by_cases hactive : s.active = some region
      · rw [if_pos hactive] at hok ⊢
        apply coherent_schedule _ _ _ _ _ hok
        · simpa using hregistered
        · intro holder hholder
          simpa using h.active_registered (by simpa using hholder)
        · intro other hother
          cases hother
        · simp [highlight_setHighlight, hregistered, standing, hactive]
        · intro key hkey
          have hother : key ≠ region := hkey
          rw [highlight_setHighlight_of_ne _ hother, active_setHighlight]
          exact hidle.highlight_eq_of_idle (pending?_cancelPending s) key
      · rw [if_neg hactive] at hok ⊢
        apply coherent_schedule _ _ _ _ _ hok
        · simpa using hregistered
        · exact hidle.active_registered
        · intro other hother
          cases hother
        · rw [hidle.highlight_eq_of_idle (pending?_cancelPending s),
            standing_eq_hidden (by simpa) (by simp), standing_eq_hidden (by simpa) (by simp)]
        · intro key _
          exact hidle.highlight_eq_of_idle (pending?_cancelPending s) key

/-- Letting time pass keeps the agreement, whether the pending change takes effect or
comes to nothing. -/
theorem Coherent.tick (h : Coherent s) (now : Instant) : Coherent (s.tick now).2 := by
  cases hdue : s.alarm.due? now with
  | none => rwa [tick_of_due?_eq_none hdue]
  | some pending =>
      have hpending := pending?_of_due? hdue
      have hregistered := h.pending_registered hpending
      have hquiet := h.quietExcept hpending
      cases pending with
      | activate region =>
          rw [tick_of_due?_activate hdue hregistered]
          exact coherent_activateNow hregistered (pending?_disarm s) hquiet
      | deactivate region =>
          by_cases hactive : s.active = some region
          · rw [tick_of_due?_deactivate hdue hactive]
            refine ⟨nofun, nofun, nofun, ?_⟩
            intro key
            -- without a holder and a pending change everybody has to be hidden
            change (s.disarm.setHighlight region .hidden).highlight key = .hidden
            rw [highlight_setHighlight_hidden, highlight_disarm]
            by_cases hkey : key = region
            · simp [hkey]
            · have hother : s.active ≠ some key := by simpa [hactive] using Ne.symm hkey
              rw [if_neg hkey, hquiet key hkey, standing_eq_hidden hother (by simp)]
          · rw [tick_of_due?_deactivate_of_not_active hdue hactive]
            refine ⟨h.active_registered, nofun, nofun, ?_⟩
            intro key
            by_cases hkey : key = region
            · subst hkey
              simp [h.highlight_eq key, hpending, standing, hactive]
            · exact hquiet key hkey

/-- Registering keeps the agreement, as long as it pushes nobody out of the
registry. -/
theorem Coherent.register (h : Coherent s) {region : RegionKey}
    (hkeeps : ∀ key, s.isRegistered key = true →
      (s.register region).isRegistered key = true) : Coherent (s.register region) := by
  have hpending : (s.register region).pending? = s.pending? := by
    rw [pending?, alarm_register, ← pending?]
  constructor
  · intro holder hholder
    rw [active_register] at hholder
    exact hkeeps _ (h.active_registered hholder)
  · intro pending hsome
    rw [hpending] at hsome
    exact hkeeps _ (h.pending_registered hsome)
  · intro other hother
    rw [hpending] at hother
    rw [active_register]
    exact h.active_ne_of_pending hother
  · intro key
    rw [highlight_register hkeeps, active_register, hpending]
    exact h.highlight_eq key

theorem active_deregister_eq_some_iff {region key : RegionKey} :
    (s.deregister region).active = some key ↔ s.active = some key ∧ key ≠ region := by
  simp [Spotlight.deregister, Option.filter_eq_some_iff]

/-- Forgetting a region leaves the holder of the highlight, if it is another one. -/
theorem active_deregister_of_ne {region : RegionKey} (h : s.active ≠ some region) :
    (s.deregister region).active = s.active := by
  cases hactive : s.active with
  | none => simp [Spotlight.deregister, hactive]
  | some key =>
      have hkey : key ≠ region := fun e => h (hactive.trans (congrArg some e))
      exact active_deregister_eq_some_iff.mpr ⟨hactive, hkey⟩

theorem pending?_deregister_eq_some_iff {region : RegionKey} {pending : Pending} :
    (s.deregister region).pending? = some pending ↔
      s.pending? = some pending ∧ pending.region ≠ region := by
  simp [pending?_deregister, Option.filter_eq_some_iff]

/-- Forgetting a region leaves the standing of all others. -/
theorem standing_deregister (s : Spotlight) {region key : RegionKey} (hne : key ≠ region) :
    standing (s.deregister region).active (s.deregister region).pending? key =
      standing s.active s.pending? key := by
  simp [standing, active_deregister_eq_some_iff, pending?_deregister_eq_some_iff, hne]

/-- Forgetting a region keeps the agreement about all others. -/
theorem Coherent.deregister (h : Coherent s) (region : RegionKey) :
    Coherent (s.deregister region) := by
  constructor
  · intro holder hholder
    rcases active_deregister_eq_some_iff.mp hholder with ⟨hold, hne⟩
    rw [isRegistered_deregister_of_ne s hne]
    exact h.active_registered hold
  · intro pending hsome
    rcases pending?_deregister_eq_some_iff.mp hsome with ⟨hold, hne⟩
    rw [isRegistered_deregister_of_ne s hne]
    exact h.pending_registered hold
  · intro other hother hholder
    exact h.active_ne_of_pending (pending?_deregister_eq_some_iff.mp hother).1
      (active_deregister_eq_some_iff.mp hholder).1
  · intro key
    rw [highlight_deregister]
    by_cases hkey : key = region
    · subst hkey
      simp [standing, active_deregister_eq_some_iff, pending?_deregister_eq_some_iff]
    · rw [if_neg hkey, standing_deregister s hkey, h.highlight_eq key]

/-- Resetting makes the records agree, whatever they were. -/
theorem coherent_reset (s : Spotlight) : Coherent s.reset := by
  refine ⟨nofun, nofun, nofun, ?_⟩
  exact highlight_reset s

/-! ## Runs -/

/-- Whether a call pushes a registered region out of the registry. -/
def evicts (s : Spotlight) : Operation → Bool
  | .register region =>
      s.registry.entries.any fun e => !(s.register region).isRegistered e.1
  | _ => false

/-- The state after one call. -/
def step (s : Spotlight) (operation : Operation) : Spotlight := (s.perform operation).2

/-- A call that does not fail and pushes nobody out of the registry. -/
def IsOrderly (s : Spotlight) (operation : Operation) : Prop :=
  (s.perform operation).1.isOk = true ∧ s.evicts operation = false

instance (s : Spotlight) (operation : Operation) : Decidable (s.IsOrderly operation) :=
  inferInstanceAs (Decidable (_ ∧ _))

/-- A registration that evicts nobody keeps everybody registered. -/
theorem isRegistered_register_of_not_evicts {region : RegionKey}
    (h : s.evicts (.register region) = false) (key : RegionKey)
    (hkey : s.isRegistered key = true) :
    (s.register region).isRegistered key = true := by
  rcases Option.isSome_iff_exists.mp hkey with ⟨mark, hmark⟩
  have hentry := Registry.get?_eq_some_iff.mp hmark
  have hstays := List.any_eq_false.mp h (key, mark) hentry
  simpa using hstays

/-- An orderly call keeps the agreement. -/
theorem Coherent.perform (h : Coherent s) {operation : Operation}
    (horderly : s.IsOrderly operation) : Coherent (s.perform operation).2 := by
  cases operation with
  | configure settings => exact ⟨h.1, h.2, h.3, h.4⟩
  | register region => exact h.register (isRegistered_register_of_not_evicts horderly.2)
  | deregister region => exact h.deregister region
  | activate region => exact h.activate region
  | activateLater region now => exact h.activateLater horderly.1
  | deactivateLater region now => exact h.deactivateLater horderly.1
  | tick now => exact h.tick now
  | reset => exact coherent_reset s

/-- An orderly run keeps the agreement. -/
theorem Coherent.run {operations : List Operation} (h : Coherent s)
    (horderly : Along step IsOrderly s operations) : Coherent (s.run operations) :=
  foldl_of_along (fun _ _ hcoherent hcall => hcoherent.perform hcall) h horderly

/-- In every state that an orderly run reaches from a fresh spotlight, the holder of
the highlight and the region of the pending change are registered and a region
waiting for the highlight does not hold it; there are a deadline and a serial number
exactly when a change is pending; and every region, registered or not, stands as
computed from the holder and the pending change. -/
theorem records_agree_of_orderly (settings : Settings) {operations : List Operation}
    (horderly : Along step IsOrderly { settings } operations) :
    let s := ({ settings } : Spotlight).run operations
    (∀ region, s.active = some region → s.isRegistered region = true) ∧
      (∀ pending, s.pending? = some pending → s.isRegistered pending.region = true) ∧
      (∀ region, s.pending? = some (.activate region) → s.active ≠ some region) ∧
      s.deadline?.isSome = s.pending?.isSome ∧
      s.serial?.isSome = s.pending?.isSome ∧
      ∀ region, s.highlight region = standing s.active s.pending? region := by
  intro s
  have h : Coherent s := (blank_fresh settings).coherent.run horderly
  refine ⟨fun _ => h.active_registered, fun _ => h.pending_registered,
    fun _ => h.active_ne_of_pending, ?_, ?_, h.highlight_eq⟩
  · simp [deadline?, Alarm.deadline?, pending?, Alarm.payload?]
  · simp [serial?, Alarm.serial?, pending?, Alarm.payload?]

/-- The records agree while a region that got the highlight by waiting for it is about
to lose it. -/
theorem records_agree_after_handover :
    let operations : List Operation :=
      [.register (.fresh 1), .register (.fresh 2), .activate (.fresh 1),
        .activateLater (.fresh 2) 0, .tick 100000000, .deactivateLater (.fresh 2) 200000000]
    Along step IsOrderly {} operations ∧
      ∀ region, (({} : Spotlight).run operations).highlight region =
        standing (some (.fresh 2)) (some (.deactivate (.fresh 2))) region := by
  intro operations
  have horderly : Along step IsOrderly {} operations := by decide
  exact ⟨horderly, (records_agree_of_orderly {} horderly).2.2.2.2.2⟩

end Spotlight

end NestedHover
