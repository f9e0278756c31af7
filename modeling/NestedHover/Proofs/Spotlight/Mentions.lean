import NestedHover.Proofs.Spotlight.Agreement

/-!
# Whom a spotlight names

A spotlight names regions in three places: among the registered ones, as the holder of the
highlight, and in the pending change.  Requests from regions that are not registered are
ignored, so no call brings a region into one of the last two places unless it is registered
when the call is made.  Only registering brings a region into the first one.

Main results:

- Theorems {lit}`active_perform_cases` and {lit}`pending?_perform_cases`: whom a call newly
  names as the holder or in the pending change is registered.
- Theorem {lit}`Grounded.perform`: as long as nobody is pushed out of the registry, only
  registered regions are named, whether or not calls fail.
-/

namespace NestedHover

namespace Spotlight

variable {s : Spotlight} {region key : RegionKey} {now : Instant} {pending : Pending}
  {operation : Operation}

/-! ## The pending change after each call -/

/-- Where only changes about one region can be armed, the pending change is about it. -/
theorem region_of_pending?
    (harmed : ∀ entry, s.alarm.armed = some entry → entry.payload.region = region)
    (h : s.pending? = some pending) : pending.region = region := by
  rcases Option.map_eq_some_iff.mp h with ⟨entry, hentry, rfl⟩
  exact harmed entry hentry

/-- What is pending after a delayed activation is that activation, or was before. -/
theorem pending?_activateLater_cases
    (h : (s.activateLater region now).2.pending? = some pending) :
    s.pending? = some pending ∨ s.isRegistered pending.region = true := by
  cases hregistered : s.isRegistered region with
  | false =>
      rw [activateLater_of_not_registered hregistered] at h
      exact Or.inl h
  | true =>
      right
      rw [region_of_pending? ?_ h, hregistered]
      intro entry hentry
      rcases armed_activateLater hregistered now with harmed | ⟨serial, harmed⟩
      · cases harmed.symm.trans hentry
      · cases harmed.symm.trans hentry
        rfl

/-- What is pending after a delayed deactivation is that deactivation, or was before. -/
theorem pending?_deactivateLater_cases
    (h : (s.deactivateLater region now).2.pending? = some pending) :
    s.pending? = some pending ∨ s.isRegistered pending.region = true := by
  cases hregistered : s.isRegistered region with
  | false =>
      rw [deactivateLater_of_not_registered hregistered] at h
      exact Or.inl h
  | true =>
      right
      rw [region_of_pending? ?_ h, hregistered]
      intro entry hentry
      rcases armed_deactivateLater hregistered now with ⟨-, harmed⟩ | ⟨-, serial, harmed⟩
      · cases harmed.symm.trans hentry
      · cases harmed.symm.trans hentry
        rfl

/-- What is pending after time has passed was pending before. -/
theorem pending?_of_pending?_tick (h : (s.tick now).2.pending? = some pending) :
    s.pending? = some pending := by
  rw [pending?_tick] at h
  split at h
  · cases h
  · exact h

/-- What is pending after a call was pending before or is about a registered region. -/
theorem pending?_perform_cases (h : (s.perform operation).2.pending? = some pending) :
    s.pending? = some pending ∨ s.isRegistered pending.region = true := by
  cases operation with
  | configure settings => exact Or.inl h
  | register region =>
      left
      change (s.register region).alarm.payload? = some pending at h
      rwa [alarm_register] at h
  | deregister region => exact Or.inl (pending?_deregister_eq_some_iff.mp h).1
  | activate region =>
      cases hregistered : s.isRegistered region with
      | true =>
          change (s.activate region).2.pending? = some pending at h
          rw [pending?_activate hregistered] at h
          cases h
      | false =>
          left
          rwa [perform, activate_of_not_registered hregistered] at h
  | activateLater region now => exact pending?_activateLater_cases h
  | deactivateLater region now => exact pending?_deactivateLater_cases h
  | tick now => exact Or.inl (pending?_of_pending?_tick h)
  | reset => cases h

/-! ## The holder of the highlight after each call -/

/-- Whoever holds the highlight after time has passed did so before or was waiting for it
and is registered. -/
theorem active_tick_cases (h : (s.tick now).2.active = some key) :
    s.active = some key ∨ s.isRegistered key = true := by
  rcases tick_cases s now with
    ⟨-, htick⟩ | ⟨pending, -, htick | ⟨region, -, hregistered, htick⟩ | ⟨region, -, -, htick⟩⟩
  · rw [htick] at h
    exact Or.inl h
  · rw [htick] at h
    exact Or.inl h
  · rw [htick, active_activateNow] at h
    cases h
    exact Or.inr hregistered
  · rw [htick] at h
    cases h

/-- Whoever holds the highlight after a call did so before or is registered. -/
theorem active_perform_cases (h : (s.perform operation).2.active = some key) :
    s.active = some key ∨ s.isRegistered key = true := by
  cases operation with
  | configure settings => exact Or.inl h
  | register region =>
      left
      rwa [perform, active_register] at h
  | deregister region => exact Or.inl (active_deregister_eq_some_iff.mp h).1
  | activate region =>
      cases hregistered : s.isRegistered region with
      | true =>
          rw [perform, active_activate hregistered] at h
          cases h
          exact Or.inr hregistered
      | false =>
          left
          rwa [perform, activate_of_not_registered hregistered] at h
  | activateLater region now =>
      left
      rwa [perform, active_activateLater] at h
  | deactivateLater region now =>
      left
      rwa [perform, active_deactivateLater] at h
  | tick now => exact active_tick_cases h
  | reset => cases h

/-! ## Who is registered after each call -/

@[simp] theorem isRegistered_reset (s : Spotlight) (key : RegionKey) :
    s.reset.isRegistered key = s.isRegistered key := by
  simp [isRegistered, Registry.contains, reset]

/-- Only forgetting a region and registering another one end a registration, and the latter
only by pushing the region out of the registry. -/
theorem isRegistered_perform (hregistered : s.isRegistered key = true)
    (hspared : operation ≠ .deregister key) (hkeeps : s.evicts operation = false) :
    (s.perform operation).2.isRegistered key = true := by
  cases operation with
  | configure settings => exact hregistered
  | register region => exact isRegistered_register_of_not_evicts hkeeps key hregistered
  | deregister region =>
      have hne : key ≠ region := fun e => hspared (e ▸ rfl)
      rwa [perform, isRegistered_deregister_of_ne s hne]
  | activate region => rwa [perform, isRegistered_activate]
  | activateLater region now => rwa [perform, isRegistered_activateLater]
  | deactivateLater region now => rwa [perform, isRegistered_deactivateLater]
  | tick now => rwa [perform, isRegistered_tick]
  | reset => rwa [perform, isRegistered_reset]

/-- Only registering a region makes it registered. -/
theorem isRegistered_of_perform (h : (s.perform operation).2.isRegistered key = true) :
    operation = .register key ∨ s.isRegistered key = true := by
  cases operation with
  | configure settings => exact Or.inr h
  | register region =>
      rcases isRegistered_of_register h with rfl | hbefore
      · exact Or.inl rfl
      · exact Or.inr hbefore
  | deregister region =>
      right
      by_cases hkey : key = region
      · subst hkey
        rw [perform, isRegistered_deregister_self] at h
        cases h
      · rwa [perform, isRegistered_deregister_of_ne s hkey] at h
  | activate region =>
      right
      rwa [perform, isRegistered_activate] at h
  | activateLater region now =>
      right
      rwa [perform, isRegistered_activateLater] at h
  | deactivateLater region now =>
      right
      rwa [perform, isRegistered_deactivateLater] at h
  | tick now =>
      right
      rwa [perform, isRegistered_tick] at h
  | reset =>
      right
      rwa [perform, isRegistered_reset] at h

/-! ## Only registered regions are named -/

/-- Whoever holds the highlight and whoever a change is pending about is registered. -/
structure Grounded (s : Spotlight) : Prop where
  active_registered : ∀ key, s.active = some key → s.isRegistered key = true
  pending_registered : ∀ pending, s.pending? = some pending →
    s.isRegistered pending.region = true

theorem Blank.grounded (h : Blank s) : Grounded s where
  active_registered _ hactive := absurd (h.active_eq.symm.trans hactive) nofun
  pending_registered _ hpending := absurd (h.pending?_eq.symm.trans hpending) nofun

/-- Forgetting a region that is not named changes the registry only. -/
theorem deregister_eq (hactive : s.active ≠ some region)
    (hpending : ∀ pending, s.pending? = some pending → pending.region ≠ region) :
    s.deregister region = { s with registry := s.registry.erase region } := by
  have hholder : (s.active.filter fun holder => holder ≠ region) = s.active :=
    active_deregister_of_ne hactive
  have halarm : (s.alarm.cancelIf fun pending => pending.region = region).2 = s.alarm := by
    apply alarm_deregister
    intro entry hentry
    exact hpending entry.payload (by simp [pending?, Alarm.payload?, hentry])
  rw [deregister, hholder, halarm]

theorem foldl_deregister_eq {regions : List RegionKey}
    (hactive : ∀ region ∈ regions, s.active ≠ some region)
    (hpending : ∀ region ∈ regions, ∀ pending, s.pending? = some pending →
      pending.region ≠ region) :
    regions.foldl deregister s =
      { s with registry := (regions.foldl deregister s).registry } := by
  induction regions generalizing s with
  | nil => rfl
  | cons region rest ih =>
      have hfirst := deregister_eq (hactive region List.mem_cons_self)
        (hpending region List.mem_cons_self)
      rw [List.foldl_cons, hfirst]
      exact ih (fun other hother => hactive other (List.mem_cons_of_mem _ hother))
        fun other hother => hpending other (List.mem_cons_of_mem _ hother)

/-- A call that pushes nobody out of the registry keeps it so, even if it fails. -/
theorem Grounded.perform (h : Grounded s) (hkeeps : s.evicts operation = false) :
    Grounded (s.perform operation).2 := by
  constructor
  · intro key hactive
    have hregistered : s.isRegistered key = true :=
      (active_perform_cases hactive).elim (h.active_registered key) id
    apply isRegistered_perform hregistered _ hkeeps
    rintro rfl
    exact (active_deregister_eq_some_iff.mp hactive).2 rfl
  · intro pending hpending
    have hregistered : s.isRegistered pending.region = true :=
      (pending?_perform_cases hpending).elim (h.pending_registered pending) id
    apply isRegistered_perform hregistered _ hkeeps
    rintro rfl
    exact (pending?_deregister_eq_some_iff.mp hpending).2 rfl

end Spotlight

end NestedHover
