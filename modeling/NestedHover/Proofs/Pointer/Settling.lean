import NestedHover.Proofs.Pointer.Decisions

/-!
# Settling on an owner

A transfer to an owner leaves the spotlight settled on it: either the owner holds the
highlight and nothing is pending, or its activation is pending and it does not hold
the highlight yet.  The passing of time keeps the spotlight settled, and once the
deadline is reached the owner holds the highlight.

A transfer to nobody leaves the deactivation of the owner that was left pending.  That
takes the highlight from whoever holds it only if the holder is that owner.  A
spotlight whose holder is about to lose the highlight is called fading.

Main results:

- Theorem {lit}`settled_transfer`: a transfer to an owner settles on it.
- Theorem {lit}`active_tick_of_settled`: at the deadline the owner holds the
  highlight.
- Theorem {lit}`fading_deactivateLater_iff`: after the owner that the spotlight has
  settled on is left, the spotlight is fading exactly when nothing was pending.
- Theorem {lit}`fading_iff_dark_tick`: a spotlight without a pending activation is
  fading exactly when every region is hidden once the deadline is reached.
-/

namespace NestedHover

namespace Spotlight

variable {s : Spotlight} {d : Diagram} {owner : RegionKey} {now : Instant}

/-! ## Settled spotlights -/

/-- The highlight is on the given region, or will be as soon as what is pending takes
effect. -/
def Settled (s : Spotlight) (owner : RegionKey) : Prop :=
  (s.active = some owner ∧ s.pending? = none) ∨
    (s.pending? = some (.activate owner) ∧ s.active ≠ some owner)

instance (s : Spotlight) (owner : RegionKey) : Decidable (s.Settled owner) :=
  inferInstanceAs (Decidable (_ ∨ _))

theorem settled_activate (hregistered : s.isRegistered owner = true) :
    Settled (s.activate owner).2 owner :=
  Or.inl ⟨active_activate hregistered, pending?_activate hregistered⟩

theorem settled_activateLater (hregistered : s.isRegistered owner = true)
    (hok : (s.activateLater owner now).1.isOk = true) :
    Settled (s.activateLater owner now).2 owner := by
  have hpending := pending?_activateLater_of_isOk hregistered hok
  by_cases hactive : s.active = some owner
  · rw [if_pos hactive] at hpending
    exact Or.inl ⟨by rw [active_activateLater, hactive], hpending⟩
  · rw [if_neg hactive] at hpending
    exact Or.inr ⟨hpending, by rwa [active_activateLater]⟩

/-- A transfer to an owner that does not fail settles on it. -/
theorem settled_transfer {source : Option RegionKey}
    (hregistered : s.isRegistered owner = true)
    (hok : (s.transfer d source (some owner) now).1.isOk = true) :
    Settled (s.transfer d source (some owner) now).2 owner := by
  rcases transfer_some_cases hok with ⟨t, hbefore, hlast⟩
  have ht : t.isRegistered owner = true := by
    rcases hbefore with rfl | ⟨left, rfl⟩
    · exact hregistered
    · simpa using hregistered
  rcases hlast with hstate | ⟨_, -, -, -, hlater, hstate⟩
  · rw [hstate]
    exact settled_activate ht
  · rw [hstate]
    exact settled_activateLater ht hlater

/-- After a transfer to an owner somebody holds the highlight, provided that somebody
did while another owner was being left. -/
theorem isSome_active_transfer {source : Option RegionKey}
    (hregistered : s.isRegistered owner = true)
    (hsource : source.isSome = true → s.active.isSome = true)
    (hok : (s.transfer d source (some owner) now).1.isOk = true) :
    (s.transfer d source (some owner) now).2.active.isSome = true := by
  rcases transfer_some_cases hok with ⟨t, hbefore, hlast⟩
  rcases hlast with hstate | ⟨left, rfl, -, -, -, hstate⟩
  · have ht : t.isRegistered owner = true := by
      rcases hbefore with rfl | ⟨left, rfl⟩
      · exact hregistered
      · simpa using hregistered
    rw [hstate, active_activate ht]
    rfl
  · have ht : t.active = s.active := by
      rcases hbefore with rfl | ⟨left, rfl⟩
      · rfl
      · exact active_deactivateLater s left now
    rw [hstate, active_activateLater, ht]
    exact hsource rfl

/-- The passing of time either changes nothing or puts the highlight on the owner. -/
theorem Settled.tick_cases (h : Settled s owner) (hregistered : s.isRegistered owner = true)
    (now : Instant) :
    (s.tick now).2 = s ∨
      ((s.tick now).2.active = some owner ∧ (s.tick now).2.pending? = none) := by
  cases hdue : s.alarm.due? now with
  | none =>
      left
      rw [tick_of_due?_eq_none hdue]
  | some pending =>
      right
      have hpending := pending?_of_due? hdue
      rcases h with ⟨-, hidle⟩ | ⟨hwaiting, -⟩
      · rw [hidle] at hpending
        cases hpending
      · rw [hwaiting] at hpending
        cases hpending
        rw [tick_of_due?_activate hdue hregistered]
        refine ⟨active_activateNow s.disarm owner, ?_⟩
        rw [pending?, alarm_activateNow, ← pending?, pending?_disarm]

theorem Settled.tick (h : Settled s owner) (hregistered : s.isRegistered owner = true)
    (now : Instant) : Settled (s.tick now).2 owner := by
  rcases h.tick_cases hregistered now with hsame | hthere
  · rwa [hsame]
  · exact Or.inl hthere

/-- Once the deadline is reached, if there is one, the owner holds the highlight. -/
theorem active_tick_of_settled (h : Settled s owner)
    (hregistered : s.isRegistered owner = true)
    (hdeadline : ∀ deadline, s.deadline? = some deadline → deadline ≤ now) :
    (s.tick now).2.active = some owner := by
  rcases h with ⟨hactive, hidle⟩ | ⟨hwaiting, -⟩
  · rcases Settled.tick_cases (Or.inl ⟨hactive, hidle⟩) hregistered now with
      hsame | ⟨hthere, -⟩
    · rw [hsame, hactive]
    · exact hthere
  · have hdue : s.alarm.due? now = some (.activate owner) := by
      rw [due?_eq_pending? hdeadline, hwaiting]
    rw [tick_of_due?_activate hdue hregistered]
    exact active_activateNow s.disarm owner

/-- Registering another region leaves the spotlight settled. -/
theorem Settled.register (h : Settled s owner) (region : RegionKey) :
    Settled (s.register region) owner := by
  unfold Spotlight.register
  split
  · exact h
  · exact h

/-- Forgetting another region leaves the spotlight settled. -/
theorem Settled.deregister (h : Settled s owner) {region : RegionKey}
    (hne : owner ≠ region) : Settled (s.deregister region) owner := by
  have hactive : (s.deregister region).active = some owner ↔ s.active = some owner := by
    simp [Spotlight.deregister, Option.filter_eq_some_iff, hne]
  rcases h with ⟨hholder, hidle⟩ | ⟨hwaiting, hother⟩
  · left
    exact ⟨hactive.mpr hholder, by rw [pending?_deregister, hidle, Option.filter_none]⟩
  · right
    refine ⟨?_, fun hholder => hother (hactive.mp hholder)⟩
    rw [pending?_deregister, hwaiting]
    simp [Option.filter, hne]

theorem Settled.foldl_deregister (h : Settled s owner) {regions : List RegionKey}
    (hstays : owner ∉ regions) : Settled (regions.foldl Spotlight.deregister s) owner := by
  induction regions generalizing s with
  | nil => exact h
  | cons region rest ih =>
      rw [List.mem_cons, not_or] at hstays
      exact ih (h.deregister hstays.1) hstays.2

/-! ## Fading spotlights -/

/-- Whoever holds the highlight is about to lose it. -/
def Fading (s : Spotlight) : Prop :=
  ∀ region, s.active = some region → s.pending? = some (.deactivate region)

instance (s : Spotlight) : Decidable s.Fading :=
  inferInstanceAs (Decidable (∀ region ∈ s.active, s.pending? = some (.deactivate region)))

/-- After the owner that the spotlight has settled on is left, the spotlight is fading
exactly when nothing was pending: the deactivation of an owner that was still waiting
for the highlight does nothing to the one that held it. -/
theorem fading_deactivateLater_iff (h : Settled s owner)
    (hholder : s.active.isSome = true) (hregistered : s.isRegistered owner = true)
    (hok : (s.deactivateLater owner now).1.isOk = true) :
    Fading (s.deactivateLater owner now).2 ↔ s.pending? = none := by
  unfold Fading
  rw [active_deactivateLater, pending?_deactivateLater_of_isOk hregistered hok]
  rcases h with ⟨hactive, hidle⟩ | ⟨hwaiting, hother⟩
  · refine iff_of_true ?_ hidle
    intro region hregion
    rw [hactive] at hregion
    cases hregion
    rfl
  · refine iff_of_false ?_ ?_
    · intro hfading
      rcases Option.isSome_iff_exists.mp hholder with ⟨holder, hactive⟩
      have hsame := hfading holder hactive
      cases hsame
      exact hother hactive
    · rw [hwaiting]
      exact nofun

/-- The passing of time does not decide whether a spotlight without a pending activation
is fading. -/
theorem fading_tick_iff (hidle : ∀ region, s.pending? ≠ some (.activate region))
    (now : Instant) : Fading (s.tick now).2 ↔ Fading s := by
  cases hdue : s.alarm.due? now with
  | none => rw [tick_of_due?_eq_none hdue]
  | some pending =>
      have hpending := pending?_of_due? hdue
      cases pending with
      | activate region => exact absurd hpending (hidle region)
      | deactivate region =>
          by_cases hactive : s.active = some region
          · rw [tick_of_due?_deactivate hdue hactive]
            refine iff_of_true nofun ?_
            intro holder hholder
            rw [hactive] at hholder
            cases hholder
            exact hpending
          · rw [tick_of_due?_deactivate_of_not_active hdue hactive]
            unfold Fading
            rw [active_disarm, pending?_disarm, hpending]
            refine forall_congr' fun holder => forall_congr' fun hholder => ?_
            refine iff_of_false nofun ?_
            intro hsame
            cases hsame
            exact hactive hholder

/-- A spotlight without a pending activation is fading exactly when every region is
hidden once the deadline is reached. -/
theorem fading_iff_dark_tick (h : Coherent s)
    (hidle : ∀ region, s.pending? ≠ some (.activate region))
    (hdeadline : ∀ deadline, s.deadline? = some deadline → deadline ≤ now) :
    Fading s ↔
      (s.tick now).2.active = none ∧ ∀ region, (s.tick now).2.highlight region = .hidden := by
  have hafter : (s.tick now).2.pending? = none := by
    rw [pending?_tick, due?_eq_pending? hdeadline]
    cases s.pending? <;> rfl
  rw [← fading_tick_iff hidle now]
  constructor
  · intro hfading
    have hnobody : (s.tick now).2.active = none := by
      cases hactive : (s.tick now).2.active with
      | none => rfl
      | some holder =>
          have hlosing := hfading holder hactive
          rw [hafter] at hlosing
          cases hlosing
    refine ⟨hnobody, fun region => ?_⟩
    rw [(h.tick now).highlight_eq region, hnobody, hafter]
    rfl
  · rintro ⟨hnobody, -⟩ region hregion
    rw [hnobody] at hregion
    cases hregion

end Spotlight

end NestedHover
