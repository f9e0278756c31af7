import NestedHover.Proofs.Spotlight.Registrations

/-!
# What is cancelled leaves no trace

Delayed requests replace each other before they take effect: each of them cancels what is
pending and restores the region that it was about.  However long such a chain grows, the
same region holds the highlight and is the only one that is shown.  Once that region asks
for the highlight that it holds, nothing is left of the chain but the serial numbers that
it has used up; regions that were registered and settings that were changed meanwhile stay.

Main results:

- Theorem {lit}`provisional_run`: provisional calls keep the holder of the highlight and
  the count of activations.
- Theorem {lit}`activate_of_active`: the holder's own request leaves a coherent state as
  if nothing had been pending.
- Theorem {lit}`cancelled_leaves_no_trace`: both, from every state that an orderly run
  reaches.
-/

namespace NestedHover

namespace Spotlight

variable {s t : Spotlight} {region : RegionKey} {call : Operation} {calls : List Operation}

/-! ## Provisional calls -/

/-- A call that may arm a change or cancel one and works, but lets nothing take effect:
delayed requests, other settings, registrations that push nobody out of the registry, and
ticks before the deadline. -/
def IsProvisional (s : Spotlight) : Operation → Prop
  | .configure _ => True
  | .register key => s.evicts (.register key) = false
  | .deregister _ => False
  | .activate _ => False
  | .activateLater key now => (s.activateLater key now).1.isOk = true
  | .deactivateLater key now => (s.deactivateLater key now).1.isOk = true
  | .tick now => ∀ deadline ∈ s.deadline?, now < deadline
  | .reset => False

instance decidableIsProvisional (s : Spotlight) : ∀ call, Decidable (s.IsProvisional call)
  | .configure _ => inferInstanceAs (Decidable True)
  | .register _ => inferInstanceAs (Decidable (_ = _))
  | .deregister _ => inferInstanceAs (Decidable False)
  | .activate _ => inferInstanceAs (Decidable False)
  | .activateLater _ _ => inferInstanceAs (Decidable (_ = _))
  | .deactivateLater _ _ => inferInstanceAs (Decidable (_ = _))
  | .tick now => inferInstanceAs (Decidable (∀ deadline ∈ s.deadline?, now < deadline))
  | .reset => inferInstanceAs (Decidable False)

theorem IsProvisional.isOrderly (h : s.IsProvisional call) : s.IsOrderly call := by
  cases call with
  | configure settings => exact ⟨rfl, rfl⟩
  | register key => exact ⟨rfl, h⟩
  | activateLater key now => exact ⟨h, rfl⟩
  | deactivateLater key now => exact ⟨h, rfl⟩
  | tick now => exact ⟨rfl, rfl⟩
  | _ => exact h.elim

theorem IsProvisional.isDeregistration_eq (h : s.IsProvisional call) :
    call.isDeregistration = false := by
  cases call with
  | deregister key => exact h.elim
  | _ => rfl

/-- A provisional call keeps the holder of the highlight and the count of activations. -/
theorem IsProvisional.keeps (h : s.IsProvisional call) :
    (s.perform call).2.active = s.active ∧
      (s.perform call).2.activations = s.activations := by
  cases call with
  | configure settings => exact ⟨rfl, rfl⟩
  | register key => exact ⟨active_register s key, activations_register s key⟩
  | activateLater key now =>
      exact ⟨active_activateLater s key now, activations_activateLater s key now⟩
  | deactivateLater key now =>
      exact ⟨active_deactivateLater s key now, activations_deactivateLater s key now⟩
  | tick now =>
      have hdue : s.alarm.due? now = none :=
        due?_eq_none_of_lt fun deadline hdeadline => h deadline hdeadline
      rw [perform, tick_of_due?_eq_none hdue]
      exact ⟨rfl, rfl⟩
  | _ => exact h.elim

/-- Provisional calls keep the holder of the highlight and the count of activations. -/
theorem provisional_run (h : Along step IsProvisional s calls) :
    (s.run calls).active = s.active ∧ (s.run calls).activations = s.activations := by
  refine foldl_of_along (I := fun t => t.active = s.active ∧ t.activations = s.activations)
    ?_ ⟨rfl, rfl⟩ h
  rintro t call ⟨hactive, hcount⟩ hcall
  obtain ⟨hkeepsActive, hkeepsCount⟩ := hcall.keeps
  exact ⟨hkeepsActive.trans hactive, hkeepsCount.trans hcount⟩

theorem Coherent.run_of_provisional (hs : Coherent s)
    (h : Along step IsProvisional s calls) : Coherent (s.run calls) :=
  hs.run (along_mono (fun _ _ hcall => hcall.isOrderly) h)

/-! ## The registrations among them -/

/-- After provisional calls those regions are registered that are after the registrations
among them. -/
theorem registered_run_registrations (h : Along step IsProvisional s calls)
    (hsame : s.registered = t.registered) :
    (s.run calls).registered = (t.run (calls.filter Operation.isRegistration)).registered := by
  induction calls generalizing s t with
  | nil => exact hsame
  | cons call rest ih =>
      cases hregister : call.isRegistration with
      | true =>
          rw [List.filter_cons_of_pos hregister]
          exact ih h.2 (registered_perform_congr hsame call)
      | false =>
          rw [List.filter_cons_of_neg (by simp [hregister])]
          exact ih h.2
            ((registered_perform hregister h.1.isDeregistration_eq).trans hsame)

/-- The registrations among provisional calls are orderly on their own. -/
theorem along_isOrderly_registrations (h : Along step IsProvisional s calls)
    (hsame : s.registered = t.registered) :
    Along step IsOrderly t (calls.filter Operation.isRegistration) := by
  induction calls generalizing s t with
  | nil => trivial
  | cons call rest ih =>
      cases hregister : call.isRegistration with
      | true =>
          rw [List.filter_cons_of_pos hregister]
          refine ⟨?_, ih h.2 (registered_perform_congr hsame call)⟩
          cases call with
          | register key => exact ⟨rfl, (evicts_congr hsame _).symm.trans h.1⟩
          | _ => cases hregister
      | false =>
          rw [List.filter_cons_of_neg (by simp [hregister])]
          exact ih h.2
            ((registered_perform hregister h.1.isDeregistration_eq).trans hsame)

/-- Registrations change nothing but the registry. -/
theorem exists_run_registrations (s : Spotlight) (calls : List Operation) :
    ∃ registry, s.run (calls.filter Operation.isRegistration) = { s with registry } := by
  induction calls generalizing s with
  | nil => exact ⟨s.registry, rfl⟩
  | cons call rest ih =>
      cases call with
      | register key =>
          have hfirst : s.register key = { s with registry := (s.register key).registry } := by
            unfold register
            split <;> rfl
          obtain ⟨registry, hrest⟩ := ih (s.register key)
          refine ⟨registry, hrest.trans ?_⟩
          rw [hfirst]
      | _ => exact ih s

/-! ## The holder's own request -/

attribute [ext] Spotlight

/-- The holder of the highlight that asks for it gets no answer.  Whatever was pending is
cancelled, and every region stands as in any coherent state with the same registered
regions and the same holder in which nothing is pending. -/
theorem activate_of_active (hs : Coherent s) (ht : Coherent t)
    (hactive : s.active = some region) (hholder : t.active = some region)
    (hidle : t.pending? = none) (hsame : s.registered = t.registered) :
    s.activate region =
      (.none, { s with registry := t.registry, alarm := s.alarm.disarm }) := by
  have hregistered := hs.active_registered hactive
  have hanswer : (s.activate region).1 = .none := by
    simp [activate, hregistered, activateNow, hactive]
  refine Prod.ext hanswer (Spotlight.ext ?_ ?_ ?_ ?_ ?_)
  · exact settings_activate s region
  · apply (hs.activate region).registry_eq ht
    · rw [registered_activate, hsame]
    · rw [active_activate hregistered, hholder]
    · rw [pending?_activate hregistered, hidle]
  · exact (active_activate hregistered).trans hactive.symm
  · exact alarm_activate hregistered
  · rw [activations_activate hregistered, if_pos hactive]

/-- The registrations after the holder's own request lead to the same state as those before
it, and to the same regions as provisional calls with these registrations. -/
theorem activate_after_provisional (hs : Coherent s) (hactive : s.active = some region)
    (h : Along step IsProvisional s calls) :
    let registrations := calls.filter Operation.isRegistration
    let direct := (s.activate region).2.run registrations
    (s.run calls).activate region =
        (.none, { s.run calls with
          registry := direct.registry
          alarm := (s.run calls).alarm.disarm }) ∧
      (s.run registrations).activate region =
        (.none, { s with registry := direct.registry, alarm := s.alarm.disarm }) ∧
      direct = { s with registry := direct.registry, alarm := s.alarm.disarm } := by
  intro registrations direct
  have hregistered := hs.active_registered hactive
  have hsame : s.registered = (s.activate region).2.registered := by simp
  have hdirect : Coherent direct :=
    (hs.activate region).run (along_isOrderly_registrations h hsame)
  obtain ⟨registry, hasked⟩ : ∃ registry, direct = { (s.activate region).2 with registry } :=
    exists_run_registrations (s.activate region).2 calls
  have hholder : direct.active = some region := by
    rw [hasked]
    exact active_activate hregistered
  have hidle : direct.pending? = none := by
    rw [hasked]
    exact pending?_activate hregistered
  have hafter : (s.run calls).registered = direct.registered :=
    registered_run_registrations h hsame
  have hbefore : (s.run registrations).registered = direct.registered :=
    registered_run_congr hsame registrations
  refine ⟨?_, ?_, ?_⟩
  · exact activate_of_active (hs.run_of_provisional h) hdirect
      ((provisional_run h).1.trans hactive) hholder hidle hafter
  · obtain ⟨entered, hnew⟩ : ∃ registry, s.run registrations = { s with registry } :=
      exists_run_registrations s calls
    have hcoherent : Coherent (s.run registrations) :=
      hs.run (along_isOrderly_registrations h rfl)
    have hheld : (s.run registrations).active = some region := by
      rw [hnew]
      exact hactive
    rw [activate_of_active hcoherent hdirect hheld hholder hidle hbefore, hnew]
  · rw [hasked, activate_of_active hs (hs.activate region) hactive
      (active_activate hregistered) (pending?_activate hregistered) hsame]

/-! ## Every state that an orderly run reaches -/

/-- A state with the settings of another one and its count of serial numbers. -/
def withClockworkOf (s t : Spotlight) : Spotlight :=
  { s with settings := t.settings, alarm := { s.alarm with issued := t.alarm.issued } }

/-- From every state that an orderly run reaches from a fresh spotlight, and after every
call of a provisional sequence, the same region holds the highlight as in the beginning, as
many activations are counted, and the same regions are shown.  If a region that holds the
highlight asks for it at the end of the sequence, it gets no answer, and the state is the
one that its request and the registrations of the sequence, in either order, lead to at
once, but for the settings and the count of serial numbers. -/
theorem cancelled_leaves_no_trace (settings : Settings) {history calls : List Operation}
    (horderly : Along step IsOrderly { settings } history)
    (hprovisional : Along step IsProvisional (({ settings } : Spotlight).run history) calls) :
    let s := ({ settings } : Spotlight).run history
    (∀ made, made <+: calls →
        (s.run made).active = s.active ∧ (s.run made).activations = s.activations ∧
          ∀ key, ((s.run made).highlight key).isShown = (s.highlight key).isShown) ∧
      ∀ region, s.active = some region →
        let registrations := calls.filter Operation.isRegistration
        let direct := (s.activate region).2.run registrations
        (s.run calls).activate region =
            (.none, direct.withClockworkOf (s.run calls)) ∧
          ((s.run registrations).activate region).2 = direct := by
  intro s
  have hs : Coherent s := (blank_fresh settings).coherent.run horderly
  constructor
  · intro made hmade
    have hmadeProvisional := along_of_isPrefix hmade hprovisional
    obtain ⟨hactive, hcount⟩ := provisional_run hmadeProvisional
    refine ⟨hactive, hcount, ?_⟩
    intro key
    rw [Bool.eq_iff_iff, (hs.run_of_provisional hmadeProvisional).isShown_iff,
      hs.isShown_iff, hactive]
  · intro region hactive registrations direct
    obtain ⟨hcalls, hregistrations, hdirect⟩ :=
      activate_after_provisional hs hactive hprovisional
    obtain ⟨hholder, hcount⟩ := provisional_run hprovisional
    constructor
    · rw [hcalls]
      refine Prod.ext rfl (Spotlight.ext rfl rfl ?_ ?_ ?_)
      · exact hholder.trans (congrArg Spotlight.active hdirect).symm
      · have hquiet : direct.alarm = s.alarm.disarm := congrArg Spotlight.alarm hdirect
        rw [withClockworkOf, hquiet]
        rfl
      · exact hcount.trans (congrArg Spotlight.activations hdirect).symm
    · exact (congrArg Prod.snd hregistrations).trans hdirect.symm

/-- The holder asks for the highlight again after it was about to lose it, after two others
were about to get it, and after a third has been registered. -/
theorem cancelled_leaves_no_trace_of_chain :
    let first : RegionKey := .fresh 1
    let second : RegionKey := .fresh 2
    let third : RegionKey := .fresh 3
    let s := ({} : Spotlight).run
      [.register first, .register second, .activate first, .activateLater second 0]
    let calls : List Operation :=
      [.deactivateLater first 10, .tick 100000009, .register third, .activateLater third 20,
        .configure ⟨5⟩, .deactivateLater second 30, .tick 34, .activateLater second 40]
    let direct := (s.activate first).2.run (calls.filter Operation.isRegistration)
    Along step IsProvisional s calls ∧ s.active = some first ∧
      (s.run calls).pending? = some (.activate second) ∧
      (∀ key, ((s.run calls).highlight key).isShown = (s.highlight key).isShown) ∧
      (s.run calls).activate first =
        (.none, direct.withClockworkOf (s.run calls)) := by
  intro first second third s calls direct
  have horderly : Along step IsOrderly {} [.register first, .register second,
      .activate first, .activateLater second 0] := by decide
  have hprovisional : Along step IsProvisional s calls := by decide
  have hactive : s.active = some first := by decide
  obtain ⟨hkept, hreturn⟩ := cancelled_leaves_no_trace {} horderly hprovisional
  exact ⟨hprovisional, hactive, by decide, (hkept calls List.prefix_rfl).2.2,
    (hreturn first hactive).1⟩

end Spotlight

end NestedHover
