import NestedHover.Proofs.Spotlight.Agreement

/-!
# At most one region is shown

Not every driver is orderly.  Registering a region can push another version of its slot
out of the registry while that one holds the highlight or waits for it, the region that
was pushed out can be registered again, and a delayed request can fail halfway.  Then
the records of the highlight need not agree any more.  What survives all of this is that
nobody is shown but the holder of the highlight.

As long as no call fails more survives: every region stands as computed from the holder
and the pending change, or it is hidden because it came back into the registry after it
had been pushed out.

Main results:

- Theorem {lit}`Exclusive.perform`: every call, failing or not, leaves nobody shown but the
  holder of the highlight.
- Theorem {lit}`Credible.perform`: a call that does not fail leaves every region hidden or
  as computed.
- Theorem {lit}`shown_only_if_active`: both, in every state that a run reaches from a fresh
  spotlight.
-/

namespace NestedHover

namespace Spotlight

variable {s t : Spotlight} {region : RegionKey} {now : Instant}

/-! ## Nobody is shown but the holder of the highlight -/

/-- Whoever is shown holds the highlight. -/
def Exclusive (s : Spotlight) : Prop :=
  ∀ key, (s.highlight key).isShown = true → s.active = some key

theorem Blank.exclusive (h : Blank s) : Exclusive s := by
  intro key hshown
  rw [h.highlight_eq key] at hshown
  cases hshown

/-- What carries over where nobody new is shown and the holder stays the same. -/
theorem Exclusive.of_shown_imp (h : Exclusive s) (hactive : t.active = s.active)
    (hshown : ∀ key, (t.highlight key).isShown = true → (s.highlight key).isShown = true) :
    Exclusive t := by
  intro key hkey
  rw [hactive]
  exact h key (hshown key hkey)

/-- Cancelling shows nobody new: a region that was about to lose the highlight was shown
already. -/
theorem Exclusive.cancelPending (h : Exclusive s) : Exclusive s.cancelPending := by
  apply h.of_shown_imp (active_cancelPending s)
  intro key hkey
  rw [highlight_cancelPending] at hkey
  split at hkey
  · cases hkey
  · split at hkey
    · rename_i hwaiting
      rw [hwaiting.2]
      rfl
    · exact hkey

/-- Marking keeps it so, if only the holder is marked as shown. -/
theorem Exclusive.setHighlight (h : Exclusive s) {mark : Highlight}
    (hmark : mark.isShown = true → s.active = some region) :
    Exclusive (s.setHighlight region mark) := by
  intro key hkey
  rw [highlight_setHighlight] at hkey
  rw [active_setHighlight]
  split at hkey
  · rename_i hmarked
    rw [hmarked.1]
    exact hmark hkey
  · exact h key hkey

/-- Giving the highlight to a registered region hides the only one that may be shown. -/
theorem Exclusive.activateNow (h : Exclusive s) (hregistered : s.isRegistered region = true) :
    Exclusive (s.activateNow region).2 := by
  intro key hkey
  rw [highlight_activateNow hregistered] at hkey
  rw [active_activateNow]
  split at hkey
  · rename_i hsame
    rw [hsame]
  · split at hkey
    · cases hkey
    · rename_i hother
      exact absurd (h key hkey) hother

theorem Exclusive.activate (h : Exclusive s) (region : RegionKey) :
    Exclusive (s.activate region).2 := by
  unfold Spotlight.activate
  split
  · exact h.cancelPending.activateNow (by simpa)
  · exact h

/-- A delayed activation shows nobody, whether or not it fails. -/
theorem Exclusive.activateLater (h : Exclusive s) (region : RegionKey) (now : Instant) :
    Exclusive (s.activateLater region now).2 := by
  cases hregistered : s.isRegistered region with
  | false => rwa [activateLater_of_not_registered hregistered]
  | true =>
      by_cases hactive : s.active = some region
      · rw [activateLater_of_active hregistered hactive]
        exact h.cancelPending
      · rw [activateLater_of_not_active hregistered hactive]
        have hmarked : Exclusive (s.cancelPending.setHighlight region .pendingActive) :=
          h.cancelPending.setHighlight nofun
        exact hmarked.of_shown_imp rfl fun _ => id

/-- A delayed deactivation marks the holder only, whether or not it fails. -/
theorem Exclusive.deactivateLater (h : Exclusive s) (region : RegionKey) (now : Instant) :
    Exclusive (s.deactivateLater region now).2 := by
  cases hregistered : s.isRegistered region with
  | false => rwa [deactivateLater_of_not_registered hregistered]
  | true =>
      rw [deactivateLater_of_registered hregistered]
      by_cases hactive : s.active = some region
      · rw [if_pos hactive]
        have hmarked : Exclusive (s.cancelPending.setHighlight region .pendingHidden) :=
          h.cancelPending.setHighlight fun _ => (active_cancelPending s).trans hactive
        exact hmarked.of_shown_imp rfl fun _ => id
      · rw [if_neg hactive]
        exact h.cancelPending.of_shown_imp rfl fun _ => id

/-- When the deadline is reached the holder changes or loses its mark. -/
theorem Exclusive.tick (h : Exclusive s) (now : Instant) : Exclusive (s.tick now).2 := by
  have hidle : Exclusive s.disarm := h.of_shown_imp rfl fun _ => id
  rcases tick_cases s now with ⟨-, htick⟩ |
    ⟨pending, -, htick | ⟨region, -, hregistered, htick⟩ | ⟨region, -, hactive, htick⟩⟩
  · rwa [htick]
  · rwa [htick]
  · rw [htick]
    exact hidle.activateNow hregistered
  · rw [htick]
    intro key hkey
    -- the holder was the only one that could be shown, and it is hidden now
    change ((s.disarm.setHighlight region .hidden).highlight key).isShown = true at hkey
    rw [highlight_setHighlight_hidden] at hkey
    split at hkey
    · cases hkey
    · rename_i hne
      have hholder : s.active = some key := h key hkey
      rw [hactive] at hholder
      exact absurd (Option.some.inj hholder).symm hne

/-- Registering shows nobody, even where it pushes a region out of the registry. -/
theorem Exclusive.register (h : Exclusive s) (region : RegionKey) :
    Exclusive (s.register region) := by
  apply h.of_shown_imp (active_register s region)
  intro key hkey
  cases hafter : (s.register region).isRegistered key with
  | false =>
      rw [highlight_of_not_registered hafter] at hkey
      cases hkey
  | true => rwa [highlight_register_of_isRegistered hafter] at hkey

theorem Exclusive.deregister (h : Exclusive s) (region : RegionKey) :
    Exclusive (s.deregister region) := by
  intro key hkey
  rw [highlight_deregister] at hkey
  split at hkey
  · cases hkey
  · rename_i hne
    simp [Spotlight.deregister, h key hkey, Option.filter, hne]

/-- Every call, failing or not, leaves nobody shown but the holder of the highlight. -/
theorem Exclusive.perform (h : Exclusive s) (operation : Operation) :
    Exclusive (s.perform operation).2 := by
  cases operation with
  | configure settings => exact h
  | register region => exact h.register region
  | deregister region => exact h.deregister region
  | activate region => exact h.activate region
  | activateLater region now => exact h.activateLater region now
  | deactivateLater region now => exact h.deactivateLater region now
  | tick now => exact h.tick now
  | reset =>
      intro key hkey
      change (s.reset.highlight key).isShown = true at hkey
      rw [highlight_reset] at hkey
      cases hkey

theorem Exclusive.run (h : Exclusive s) (operations : List Operation) :
    Exclusive (s.run operations) :=
  List.foldlRecOn operations _ h fun _ hexclusive operation _ => hexclusive.perform operation

/-! ## Every region is hidden or as computed -/

/-- A region that is not hidden stands as computed from the holder of the highlight and
the pending change, and a region waiting for the highlight does not hold it. -/
structure Credible (s : Spotlight) : Prop where
  active_ne_of_pending : ∀ {region}, s.pending? = some (.activate region) →
    s.active ≠ some region
  highlight_eq : ∀ key, s.highlight key ≠ .hidden →
    s.highlight key = standing s.active s.pending? key

/-- All regions but the given one are hidden or stand as if nothing were pending. -/
def FaintExcept (s : Spotlight) (region : RegionKey) : Prop :=
  ∀ key, key ≠ region → s.highlight key ≠ .hidden →
    s.highlight key = standing s.active none key

theorem Blank.credible (h : Blank s) : Credible s where
  active_ne_of_pending hpending := absurd (h.pending?_eq.symm.trans hpending) nofun
  highlight_eq key hmark := absurd (h.highlight_eq key) hmark

theorem Credible.faintExcept (h : Credible s) {pending : Pending}
    (hpending : s.pending? = some pending) : FaintExcept s pending.region := by
  intro key hkey hmark
  rw [h.highlight_eq key hmark, hpending, standing_some_of_ne s.active hkey]

theorem Credible.cancelPending (h : Credible s) : Credible s.cancelPending where
  active_ne_of_pending hpending := by
    rw [pending?_cancelPending] at hpending
    cases hpending
  highlight_eq key hmark := by
    rw [highlight_cancelPending] at hmark ⊢
    rw [active_cancelPending, pending?_cancelPending]
    by_cases hhidden : s.highlight key = .hidden
    · simp [hhidden] at hmark
    · rw [h.highlight_eq key hhidden]
      exact restored_standing h.active_ne_of_pending

/-- Giving the highlight to a region leaves nobody else marked. -/
theorem credible_activateNow (hregistered : s.isRegistered region = true)
    (hidle : s.pending? = none) (hfaint : FaintExcept s region) :
    Credible (s.activateNow region).2 := by
  have hafter : (s.activateNow region).2.pending? = none := by
    rw [pending?, alarm_activateNow, ← pending?, hidle]
  constructor
  · intro other hother
    rw [hafter] at hother
    cases hother
  · intro key hmark
    rw [highlight_activateNow hregistered] at hmark ⊢
    rw [active_activateNow, hafter]
    by_cases hkey : key = region
    · simp [hkey, standing]
    · rw [if_neg hkey] at hmark
      by_cases hactive : s.active = some key
      · simp [hactive] at hmark
      · -- without the highlight and without a pending change a region is hidden
        rw [if_neg hactive] at hmark
        have hstands := hfaint key hkey hmark
        exact absurd (hstands.trans (standing_eq_hidden hactive (by simp))) hmark

/-- Arming a change keeps the marks credible, if its region is marked accordingly or
hidden. -/
theorem credible_schedule {pending : Pending}
    (hne : ∀ {region}, pending = .activate region → s.active ≠ some region)
    (hmark : s.highlight pending.region ≠ .hidden →
      s.highlight pending.region = standing s.active (some pending) pending.region)
    (hfaint : FaintExcept s pending.region)
    (hok : (s.schedule pending now).1.isOk = true) :
    Credible (s.schedule pending now).2 := by
  have hpending := pending?_schedule_of_isOk hok
  constructor
  · intro region hregion
    rw [hpending] at hregion
    exact hne (Option.some.inj hregion)
  · intro key hkey
    rw [highlight_schedule] at hkey ⊢
    rw [active_schedule, hpending]
    by_cases hregion : key = pending.region
    · rw [hregion] at hkey ⊢
      exact hmark hkey
    · rw [hfaint key hregion hkey, standing_some_of_ne s.active hregion]

/-! ## Calls that do not fail -/

/-- A call that does not fail. -/
def Succeeds (s : Spotlight) (operation : Operation) : Prop :=
  (s.perform operation).1.isOk = true

instance (s : Spotlight) (operation : Operation) : Decidable (s.Succeeds operation) :=
  inferInstanceAs (Decidable (_ = _))

theorem Credible.activate (h : Credible s) (region : RegionKey) :
    Credible (s.activate region).2 := by
  unfold Spotlight.activate
  split
  · rename_i hregistered
    refine credible_activateNow (by simpa using hregistered) (pending?_cancelPending s) ?_
    intro key _ hmark
    rw [h.cancelPending.highlight_eq key hmark, pending?_cancelPending]
  · exact h

theorem Credible.activateLater (h : Credible s)
    (hok : (s.activateLater region now).1.isOk = true) :
    Credible (s.activateLater region now).2 := by
  cases hregistered : s.isRegistered region with
  | false => rwa [activateLater_of_not_registered hregistered]
  | true =>
      by_cases hactive : s.active = some region
      · rw [activateLater_of_active hregistered hactive]
        exact h.cancelPending
      · rw [activateLater_of_not_active hregistered hactive] at hok ⊢
        apply credible_schedule _ _ _ hok
        · intro other hother
          cases hother
          simpa using hactive
        · intro _
          simp [highlight_setHighlight, hregistered, standing]
        · intro key hkey hmark
          have hother : key ≠ region := hkey
          rw [highlight_setHighlight_of_ne _ hother] at hmark ⊢
          rw [active_setHighlight, h.cancelPending.highlight_eq key hmark,
            pending?_cancelPending]

theorem Credible.deactivateLater (h : Credible s)
    (hok : (s.deactivateLater region now).1.isOk = true) :
    Credible (s.deactivateLater region now).2 := by
  cases hregistered : s.isRegistered region with
  | false => rwa [deactivateLater_of_not_registered hregistered]
  | true =>
      have hidle : ∀ key, s.cancelPending.highlight key ≠ .hidden →
          s.cancelPending.highlight key = standing s.cancelPending.active none key := by
        intro key hmark
        rw [h.cancelPending.highlight_eq key hmark, pending?_cancelPending]
      rw [deactivateLater_of_registered hregistered] at hok ⊢
      by_cases hactive : s.active = some region
      · rw [if_pos hactive] at hok ⊢
        apply credible_schedule _ _ _ hok
        · intro other hother
          cases hother
        · intro _
          simp [highlight_setHighlight, hregistered, standing, hactive]
        · intro key hkey hmark
          have hother : key ≠ region := hkey
          rw [highlight_setHighlight_of_ne _ hother] at hmark ⊢
          exact hidle key hmark
      · rw [if_neg hactive] at hok ⊢
        apply credible_schedule _ _ _ hok
        · intro other hother
          cases hother
        · intro hmark
          have hstands := hidle region hmark
          exact absurd (hstands.trans (standing_eq_hidden (by simpa) (by simp))) hmark
        · intro key _ hmark
          exact hidle key hmark

/-- What is left when the deadline is reached: the marks of the region that got the
highlight, or nobody's. -/
theorem Credible.tick (h : Credible s) (now : Instant) : Credible (s.tick now).2 := by
  cases hdue : s.alarm.due? now with
  | none => rwa [tick_of_due?_eq_none hdue]
  | some pending =>
      have hpending := pending?_of_due? hdue
      have hfaint := h.faintExcept hpending
      cases pending with
      | activate region =>
          cases hregistered : s.isRegistered region with
          | true =>
              rw [tick_of_due?_activate hdue hregistered]
              exact credible_activateNow hregistered (pending?_disarm s) hfaint
          | false =>
              rw [tick_of_due?_activate_of_not_registered hdue hregistered]
              refine ⟨nofun, ?_⟩
              intro key hmark
              by_cases hkey : key = region
              · subst hkey
                exact absurd (highlight_of_not_registered hregistered) hmark
              · exact hfaint key hkey hmark
      | deactivate region =>
          by_cases hactive : s.active = some region
          · rw [tick_of_due?_deactivate hdue hactive]
            refine ⟨nofun, ?_⟩
            intro key hmark
            change (s.disarm.setHighlight region .hidden).highlight key ≠ .hidden at hmark
            rw [highlight_setHighlight_hidden, highlight_disarm] at hmark
            by_cases hkey : key = region
            · simp [hkey] at hmark
            · have hother : s.active ≠ some key := by simpa [hactive] using Ne.symm hkey
              rw [if_neg hkey] at hmark
              have hstands := hfaint key hkey hmark
              exact absurd (hstands.trans (standing_eq_hidden hother (by simp))) hmark
          · rw [tick_of_due?_deactivate_of_not_active hdue hactive]
            refine ⟨nofun, ?_⟩
            intro key hmark
            by_cases hkey : key = region
            · subst hkey
              have hstands := h.highlight_eq key hmark
              rw [hpending] at hstands
              exact absurd (hstands.trans (standing_eq_hidden hactive (by simp))) hmark
            · exact hfaint key hkey hmark

/-- Registering marks nobody, and a region that comes back into the registry is hidden. -/
theorem Credible.register (h : Credible s) (region : RegionKey) :
    Credible (s.register region) := by
  have hpending : (s.register region).pending? = s.pending? := by
    rw [pending?, alarm_register, ← pending?]
  constructor
  · intro other hother
    rw [hpending] at hother
    rw [active_register]
    exact h.active_ne_of_pending hother
  · intro key hmark
    have hafter := isRegistered_of_highlight_ne hmark
    rw [highlight_register_of_isRegistered hafter] at hmark ⊢
    rw [active_register, hpending]
    exact h.highlight_eq key hmark

theorem Credible.deregister (h : Credible s) (region : RegionKey) :
    Credible (s.deregister region) := by
  constructor
  · intro other hother hholder
    exact h.active_ne_of_pending (pending?_deregister_eq_some_iff.mp hother).1
      (active_deregister_eq_some_iff.mp hholder).1
  · intro key hmark
    rw [highlight_deregister] at hmark ⊢
    by_cases hkey : key = region
    · simp [hkey] at hmark
    · rw [if_neg hkey] at hmark ⊢
      rw [h.highlight_eq key hmark, standing_deregister s hkey]

/-- A call that does not fail leaves every region hidden or as computed. -/
theorem Credible.perform (h : Credible s) {operation : Operation}
    (hok : s.Succeeds operation) : Credible (s.perform operation).2 := by
  cases operation with
  | configure settings => exact ⟨h.1, h.2⟩
  | register region => exact h.register region
  | deregister region => exact h.deregister region
  | activate region => exact h.activate region
  | activateLater region now => exact h.activateLater hok
  | deactivateLater region now => exact h.deactivateLater hok
  | tick now => exact h.tick now
  | reset => exact ⟨nofun, fun key hmark => absurd (highlight_reset s key) hmark⟩

/-! ## Runs -/

theorem Credible.run {calls : List Operation} (h : Credible s)
    (hok : Along step Succeeds s calls) : Credible (s.run calls) :=
  foldl_of_along (fun _ _ hcredible hcall => hcredible.perform hcall) h hok

/-- In every state that a run reaches from a fresh spotlight, whichever regions it pushes
out of the registry and whichever calls fail: a registered region that is active or about
to be hidden is the holder of the highlight, so no two regions are shown.  If no call has
failed, a region waiting for the highlight does not hold it, and every registered region
is hidden or stands as computed from the holder and the pending change. -/
theorem shown_only_if_active (settings : Settings) (operations : List Operation) :
    let s := ({ settings } : Spotlight).run operations
    (∀ region, s.isRegistered region = true →
        s.highlight region = .active ∨ s.highlight region = .pendingHidden →
        s.active = some region) ∧
      (∀ first second, (s.highlight first).isShown = true →
        (s.highlight second).isShown = true → first = second) ∧
      (Along step Succeeds { settings } operations →
        (∀ region, s.pending? = some (.activate region) → s.active ≠ some region) ∧
          ∀ region, s.isRegistered region = true →
            s.highlight region = .hidden ∨
              s.highlight region = standing s.active s.pending? region) := by
  intro s
  have hexclusive : Exclusive s := (blank_fresh settings).exclusive.run operations
  refine ⟨?_, ?_, ?_⟩
  · intro region _ hmark
    exact hexclusive region (Highlight.isShown_iff.mpr hmark)
  · intro first second hfirst hsecond
    have hsame := (hexclusive first hfirst).symm.trans (hexclusive second hsecond)
    exact Option.some.inj hsame
  · intro hok
    have hcredible : Credible s := (blank_fresh settings).credible.run hok
    refine ⟨fun _ => hcredible.active_ne_of_pending, ?_⟩
    intro region _
    exact (Decidable.em _).imp_right (hcredible.highlight_eq region)

/-- The holder of the highlight is pushed out of the registry, comes back hidden while it
still holds the highlight, and is shown again as it asks to lose it. -/
theorem shown_after_coming_back :
    let first : RegionKey := .fresh 1
    let operations : List Operation :=
      [.register first, .activate first, .register first.renewed,
        .activateLater first.renewed 0, .deregister first.renewed, .register first,
        .deactivateLater first 10]
    let s := ({} : Spotlight).run operations
    Along step Succeeds {} operations ∧ s.isRegistered first = true ∧
      s.highlight first = .pendingHidden ∧ s.active = some first ∧
      (s.highlight first = .hidden ∨
        s.highlight first = standing s.active s.pending? first) := by
  intro first operations s
  have hok : Along step Succeeds {} operations := by decide
  have hregistered : s.isRegistered first = true := by decide
  have hmark : s.highlight first = .pendingHidden := by decide
  obtain ⟨hholder, -, hstands⟩ := shown_only_if_active {} operations
  exact ⟨hok, hregistered, hmark, hholder first hregistered (Or.inr hmark),
    (hstands hok).2 first hregistered⟩

end Spotlight

end NestedHover
