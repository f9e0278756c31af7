import NestedHover.Proofs.Spotlight.Journal
import NestedHover.Proofs.Spotlight.Mentions

/-!
# Forgotten regions

A region can be named in three places of a spotlight, and the answer to a call can name it
in a fourth.  Deregistering a region takes it out of the three and leaves alone whatever is
about other regions.  From then on no call brings it back, and no answer names it, until it
is registered again: an answer names only regions that the spotlight names before the call
or after it.

None of this needs the records of the highlight to agree, so it holds as well of regions
that were pushed out of the registry and after calls that have failed.

Main results:

- Theorem {lit}`mem_regions_perform_cases`: whom an answer names holds the highlight before
  the call or after it, or a change about it is pending after it.
- Theorem {lit}`Forgotten.perform`: every call but its registration leaves a forgotten region
  forgotten.
- Theorem {lit}`forgotten_until_registered`: deregistering touches nothing about other
  regions, and nothing names the region in any run that does not register it.
-/

namespace NestedHover

/-- The regions that a transition names. -/
def Transition.regions : Transition → List RegionKey
  | none => []
  | activated region previous => region :: previous.toList
  | deactivated region => [region]
  | scheduled pending _ => [pending.region]

namespace Spotlight

variable {s : Spotlight} {region key : RegionKey} {call : Operation} {pending : Pending}
  {transition : Transition}

/-! ## Whom answers name -/

/-- A change that is told to be scheduled is pending. -/
theorem pending?_of_schedule_eq {now : Instant} {told : Pending} {serial : Nat}
    (h : (s.schedule pending now).1 = .ok (.scheduled told serial)) :
    (s.schedule pending now).2.pending? = some told := by
  have hok : (s.schedule pending now).1.isOk = true := by rw [h]; rfl
  rw [pending?_schedule_of_isOk hok]
  unfold schedule at h
  cases hset : (s.alarm.set now s.settings.activationDelay pending).1 with
  | error e => simp [hset, Except.map] at h
  | ok issued =>
      simp only [hset, Except.map, Except.ok.injEq, Transition.scheduled.injEq] at h
      rw [h.1]

theorem pending?_of_activateLater_eq {now : Instant} {serial : Nat}
    (h : (s.activateLater region now).1 = .ok (.scheduled pending serial)) :
    (s.activateLater region now).2.pending? = some pending := by
  cases hregistered : s.isRegistered region with
  | false =>
      rw [activateLater_of_not_registered hregistered] at h
      cases h
  | true =>
      by_cases hactive : s.active = some region
      · rw [activateLater_of_active hregistered hactive] at h
        cases h
      · rw [activateLater_of_not_active hregistered hactive] at h ⊢
        exact pending?_of_schedule_eq h

theorem pending?_of_deactivateLater_eq {now : Instant} {serial : Nat}
    (h : (s.deactivateLater region now).1 = .ok (.scheduled pending serial)) :
    (s.deactivateLater region now).2.pending? = some pending := by
  cases hregistered : s.isRegistered region with
  | false =>
      rw [deactivateLater_of_not_registered hregistered] at h
      cases h
  | true =>
      rw [deactivateLater_of_registered hregistered] at h ⊢
      exact pending?_of_schedule_eq h

/-- Giving the highlight away schedules nothing. -/
theorem activateNow_ne_scheduled (s : Spotlight) (region : RegionKey) (pending : Pending)
    (serial : Nat) : (s.activateNow region).1 ≠ .scheduled pending serial := by
  unfold activateNow
  split <;> exact nofun

theorem activate_ne_scheduled (s : Spotlight) (region : RegionKey) (pending : Pending)
    (serial : Nat) : (s.activate region).1 ≠ .scheduled pending serial := by
  unfold activate
  split
  · exact activateNow_ne_scheduled s.cancelPending region pending serial
  · exact nofun

theorem tick_ne_scheduled (s : Spotlight) (now : Instant) (pending : Pending)
    (serial : Nat) : (s.tick now).1 ≠ .scheduled pending serial := by
  rcases tick_cases s now with
    ⟨-, h⟩ | ⟨due, -, h | ⟨region, -, -, h⟩ | ⟨region, -, -, h⟩⟩
  · rw [h]
    exact nofun
  · rw [h]
    exact nofun
  · rw [h]
    exact activateNow_ne_scheduled s.disarm region pending serial
  · rw [h]
    exact nofun

/-- Whatever an answer tells to be scheduled is pending after the call. -/
theorem pending?_of_perform_eq {serial : Nat}
    (h : (s.perform call).1 = .ok (.scheduled pending serial)) :
    (s.perform call).2.pending? = some pending := by
  cases call with
  | activate region =>
      exact absurd (Except.ok.inj h) (activate_ne_scheduled s region pending serial)
  | activateLater region now => exact pending?_of_activateLater_eq h
  | deactivateLater region now => exact pending?_of_deactivateLater_eq h
  | tick now => exact absurd (Except.ok.inj h) (tick_ne_scheduled s now pending serial)
  | _ => cases h

/-- Whom an answer names holds the highlight before the call or after it, or a change about
it is pending after the call. -/
theorem mem_regions_perform_cases (hanswer : (s.perform call).1 = .ok transition)
    (hkey : key ∈ transition.regions) :
    s.active = some key ∨ (s.perform call).2.active = some key ∨
      ∃ pending, (s.perform call).2.pending? = some pending ∧ pending.region = key := by
  have houtcome := outcome_perform s call
  rw [hanswer] at houtcome
  cases transition with
  | none => cases hkey
  | activated region previous =>
      cases houtcome with
      | activated _ hactive _ =>
          rcases List.mem_cons.mp hkey with rfl | hprevious
          · exact Or.inr (Or.inl hactive)
          · exact Or.inl (Option.mem_toList.mp hprevious)
      | silent hsilent _ _ => cases hsilent _ rfl
  | deactivated region =>
      cases houtcome with
      | deactivated hold _ _ =>
          rw [List.mem_singleton.mp hkey]
          exact Or.inl hold
      | silent hsilent _ _ => cases hsilent _ rfl
  | scheduled pending serial =>
      exact Or.inr (Or.inr
        ⟨pending, pending?_of_perform_eq hanswer, (List.mem_singleton.mp hkey).symm⟩)

/-! ## Regions that are named nowhere -/

/-- A region that is not registered, does not hold the highlight, and about which nothing
is pending. -/
structure Forgotten (s : Spotlight) (region : RegionKey) : Prop where
  isRegistered_eq : s.isRegistered region = false
  active_ne : s.active ≠ some region
  pending_ne : ∀ pending, s.pending? = some pending → pending.region ≠ region

theorem forgotten_deregister (s : Spotlight) (region : RegionKey) :
    Forgotten (s.deregister region) region where
  isRegistered_eq := isRegistered_deregister_self s region
  active_ne hactive := (active_deregister_eq_some_iff.mp hactive).2 rfl
  pending_ne _ hpending := (pending?_deregister_eq_some_iff.mp hpending).2

/-- A forgotten region reads as hidden. -/
theorem Forgotten.highlight_eq (h : Forgotten s region) : s.highlight region = .hidden :=
  highlight_of_not_registered h.isRegistered_eq

/-- Every call but its registration leaves a forgotten region forgotten: whom a call newly
names would have to be registered. -/
theorem Forgotten.perform (h : Forgotten s region) (hcall : call ≠ .register region) :
    Forgotten (s.perform call).2 region := by
  have hnot : ¬ s.isRegistered region = true := by simp [h.isRegistered_eq]
  constructor
  · rw [Bool.eq_false_iff]
    exact fun hafter => (isRegistered_of_perform hafter).elim hcall hnot
  · intro hactive
    exact (active_perform_cases hactive).elim h.active_ne hnot
  · intro pending hpending hregion
    rcases pending?_perform_cases hpending with hbefore | hregistered
    · exact h.pending_ne pending hbefore hregion
    · exact hnot (hregion ▸ hregistered)

/-- No answer names a forgotten region. -/
theorem Forgotten.not_mem_regions (h : Forgotten s region) (hcall : call ≠ .register region)
    (hanswer : (s.perform call).1 = .ok transition) : region ∉ transition.regions := by
  intro hnamed
  have hafter := h.perform hcall
  rcases mem_regions_perform_cases hanswer hnamed with
    hbefore | hactive | ⟨pending, hpending, hregion⟩
  · exact h.active_ne hbefore
  · exact hafter.active_ne hactive
  · exact hafter.pending_ne pending hpending hregion

/-! ## Runs -/

/-- A run without its registration leaves a forgotten region forgotten. -/
theorem Forgotten.run (h : Forgotten s region) {calls : List Operation}
    (hcalls : .register region ∉ calls) : Forgotten (s.run calls) region := by
  induction calls generalizing s with
  | nil => exact h
  | cons call rest ih =>
      rw [List.mem_cons, not_or] at hcalls
      exact ih (h.perform fun hcall => hcalls.1 hcall.symm) hcalls.2

/-- No answer in such a run names the region. -/
theorem Forgotten.not_mem_journal (h : Forgotten s region) {calls : List Operation}
    (hcalls : .register region ∉ calls) {record : Record} (hrecord : record ∈ s.journal calls) :
    region ∉ record.transition.regions := by
  induction calls generalizing s with
  | nil => cases hrecord
  | cons call rest ih =>
      rw [List.mem_cons, not_or] at hcalls
      have hcall : call ≠ .register region := fun e => hcalls.1 e.symm
      rw [journal_cons, List.mem_cons] at hrecord
      rcases hrecord with rfl | hrest
      · cases hanswer : (s.perform call).1 with
        | error e => exact List.not_mem_nil
        | ok transition => exact h.not_mem_regions hcall hanswer
      · exact ih (h.perform hcall) hcalls.2 hrest

/-- In every state, whatever was pushed out of the registry before and whichever calls have
failed: deregistering a region leaves the registration and the highlight of every other one,
the settings, the count of activations and that of serial numbers, the holder of the
highlight if it is another one, and the pending change with its deadline and its serial
number if it is about another one.  After every further run that does not register the
region it is not registered, reads as hidden, does not hold the highlight, and nothing is
pending about it; and no answer in that run names it. -/
theorem forgotten_until_registered (s : Spotlight) (region : RegionKey) :
    let t := s.deregister region
    (∀ key, key ≠ region →
        t.isRegistered key = s.isRegistered key ∧ t.highlight key = s.highlight key) ∧
      t.settings = s.settings ∧ t.activations = s.activations ∧
      t.alarm.issued = s.alarm.issued ∧
      (s.active ≠ some region → t.active = s.active) ∧
      ((∀ pending, s.pending? = some pending → pending.region ≠ region) →
        t.pending? = s.pending? ∧ t.deadline? = s.deadline? ∧ t.serial? = s.serial?) ∧
      ∀ calls, .register region ∉ calls →
        (t.run calls).isRegistered region = false ∧
          (t.run calls).highlight region = .hidden ∧ (t.run calls).active ≠ some region ∧
          (∀ pending, (t.run calls).pending? = some pending → pending.region ≠ region) ∧
          ∀ record ∈ t.journal calls, region ∉ record.transition.regions := by
  intro t
  refine ⟨?_, rfl, rfl, issued_deregister s region, ?_, ?_, ?_⟩
  · intro key hkey
    refine ⟨isRegistered_deregister_of_ne s hkey, ?_⟩
    rw [highlight_deregister, if_neg hkey]
  · exact active_deregister_of_ne
  · intro hother
    have halarm : t.alarm = s.alarm := alarm_deregister fun entry hentry =>
      hother entry.payload (by simp [pending?, Alarm.payload?, hentry])
    simp [pending?, deadline?, serial?, halarm]
  · intro calls hcalls
    have hforgotten : Forgotten t region := forgotten_deregister s region
    have hafter := hforgotten.run hcalls
    exact ⟨hafter.isRegistered_eq, hafter.highlight_eq, hafter.active_ne, hafter.pending_ne,
      fun _ => hforgotten.not_mem_journal hcalls⟩

/-- A region is forgotten after a later occupant of its slot has pushed it out of the
registry and is about to lose the highlight.  The later occupant stands as before, and the
old key asks for the highlight in vain. -/
theorem forgotten_after_eviction :
    let first : RegionKey := .fresh 1
    let second : RegionKey := first.renewed
    let s := ({} : Spotlight).run
      [.register first, .activateLater first 0, .register second, .activate second,
        .deactivateLater second 10]
    let t := s.deregister first
    let calls : List Operation :=
      [.activate first, .activateLater first 20, .tick 200000000, .register second,
        .activateLater second 200000000, .reset]
    (second ≠ first ∧ t.highlight second = .pendingHidden) ∧
      (s.active ≠ some first ∧ t.active = some second) ∧
      (s.pending? = some (.deactivate second) ∧ t.deadline? = some 100000010) ∧
      .register first ∉ calls ∧ (t.run calls).isRegistered first = false ∧
      ∀ record ∈ t.journal calls, first ∉ record.transition.regions := by
  intro first second s t calls
  have hne : second ≠ first := by decide
  have hholder : s.active = some second := by decide
  have hactive : s.active ≠ some first := by rw [hholder]; decide
  have hpending : s.pending? = some (.deactivate second) := by decide
  have hother : ∀ pending, s.pending? = some pending → pending.region ≠ first := by
    intro pending hsome
    rw [hpending] at hsome
    cases hsome
    exact hne
  have hcalls : .register first ∉ calls := by decide
  obtain ⟨hstands, -, -, -, hkeeps, halarm, hlater⟩ := forgotten_until_registered s first
  obtain ⟨hregistered, -, -, -, hnamed⟩ := hlater calls hcalls
  have hmark : s.highlight second = .pendingHidden := by decide
  have hdeadline : s.deadline? = some 100000010 := by decide
  exact ⟨⟨hne, (hstands second hne).2.trans hmark⟩,
    ⟨hactive, (hkeeps hactive).trans hholder⟩,
    ⟨hpending, (halarm hother).2.1.trans hdeadline⟩, hcalls, hregistered, hnamed⟩

end Spotlight

end NestedHover
