import NestedHover.Proofs.Spotlight.Effects

/-!
# What the answers tell

A host redraws by the answers that it gets and does not look into the spotlight.  The
journal of a run lists the calls with their answers and the states that they left.  A host
that follows the answers and knows which regions it has forgotten and when it has reset
the spotlight knows at any time who holds the highlight, whatever regions the run pushes
out of the registry and whichever calls fail.

Main results:

- Theorem {lit}`outcome_perform`: a call gives the highlight away and says so, takes it
  away and says so, or says nothing of it and leaves it where it is, unless the call
  forgets the holder or resets the spotlight.
- Theorem {lit}`foldl_retell_journal`: following the journal of a run leads from the holder
  of the highlight before it to the one after it.
- Theorem {lit}`issued_run_le`: a run uses up no more serial numbers than it has calls.
- Theorem {lit}`told_eq_active`: what a host is told from a fresh spotlight on.
-/

namespace NestedHover

namespace Spotlight

variable {s t after : Spotlight} {region : RegionKey} {call : Operation}
  {answer : Except ClockError Transition}

/-! ## The journal -/

/-- One call of a run with its answer and the state that it left. -/
structure Record where
  call : Operation
  answer : Except ClockError Transition
  state : Spotlight

/-- What a call brought about, as far as its answer says; an error says nothing. -/
def Record.transition (record : Record) : Transition :=
  record.answer.toOption.getD .none

/-- Whether a call has given the highlight to a region. -/
def Record.isActivation (record : Record) : Bool :=
  match record.transition with
  | .activated _ _ => true
  | _ => false

/-- The records of a run, call by call. -/
def journal (s : Spotlight) : List Operation → List Record
  | [] => []
  | call :: rest =>
      let outcome := s.perform call
      ⟨call, outcome.1, outcome.2⟩ :: outcome.2.journal rest

@[simp] theorem journal_nil (s : Spotlight) : s.journal [] = [] := rfl

@[simp] theorem journal_cons (s : Spotlight) (call : Operation) (rest : List Operation) :
    s.journal (call :: rest) =
      ⟨call, (s.perform call).1, (s.perform call).2⟩ ::
        (s.perform call).2.journal rest := rfl

theorem journal_append (s : Spotlight) (first second : List Operation) :
    s.journal (first ++ second) = s.journal first ++ (s.run first).journal second := by
  induction first generalizing s with
  | nil => rfl
  | cons call rest ih => simp [ih]

/-! ## Following the answers -/

/-- Who is left with the highlight by a call whose answer says nothing of it. -/
def Operation.spared : Operation → Option RegionKey → Option RegionKey
  | .deregister region, holder => holder.filter fun key => key ≠ region
  | .reset, _ => none
  | _, holder => holder

/-- Who holds the highlight as far as a host can tell from one more call and its answer. -/
def retell (told : Option RegionKey) (record : Record) : Option RegionKey :=
  match record.transition with
  | .activated region _ => some region
  | .deactivated _ => none
  | _ => record.call.spared told

/-- Whether a transition says that the highlight has moved. -/
def moves : Transition → Bool
  | .activated _ _ | .deactivated _ => true
  | .none | .scheduled _ _ => false

/-! ## What a call says of the highlight -/

/-- What a call answers goes with what it does to the holder of the highlight. -/
inductive Outcome (s : Spotlight) (call : Operation) :
    Except ClockError Transition → Spotlight → Prop where
  /-- The highlight goes to a region that did not hold it. -/
  | activated {after : Spotlight} {region : RegionKey} (hnew : s.active ≠ some region)
      (hactive : after.active = some region)
      (hcount : after.activations = s.activations + 1) :
      Outcome s call (.ok (.activated region s.active)) after
  /-- The holder loses the highlight. -/
  | deactivated {after : Spotlight} {region : RegionKey} (hold : s.active = some region)
      (hactive : after.active = none) (hcount : after.activations = s.activations) :
      Outcome s call (.ok (.deactivated region)) after
  /-- The answer says nothing of the highlight. -/
  | silent {answer : Except ClockError Transition} {after : Spotlight}
      (hsilent : ∀ transition, answer = .ok transition → moves transition = false)
      (hactive : after.active = call.spared s.active)
      (hcount : after.activations = s.activations) : Outcome s call answer after

/-- Nothing is said where nothing is brought about. -/
theorem outcome_none (hactive : after.active = call.spared s.active)
    (hcount : after.activations = s.activations) : Outcome s call (.ok .none) after := by
  refine .silent ?_ hactive hcount
  rintro transition ⟨⟩
  rfl

/-- Giving the highlight away is told unless the region holds it already. -/
theorem outcome_activateNow (hspared : call.spared s.active = s.active)
    (hactive : t.active = s.active) (hcount : t.activations = s.activations) :
    Outcome s call (.ok (t.activateNow region).1) (t.activateNow region).2 := by
  have hafter := activations_activateNow t region
  by_cases hholder : t.active = some region
  · have hanswer : (t.activateNow region).1 = .none := by simp [activateNow, hholder]
    rw [if_pos hholder, hcount] at hafter
    rw [hanswer]
    exact outcome_none (by rw [active_activateNow, hspared, ← hactive, hholder]) hafter
  · have hanswer : (t.activateNow region).1 = .activated region s.active := by
      simp [activateNow, hholder, ← hactive]
    rw [if_neg hholder, hcount] at hafter
    rw [hanswer]
    exact .activated (hactive ▸ hholder) (active_activateNow t region) hafter

/-- Arming a change tells of no move. -/
theorem moves_schedule {pending : Pending} {now : Instant} {transition : Transition}
    (h : (s.schedule pending now).1 = .ok transition) : moves transition = false := by
  unfold schedule at h
  cases hset : (s.alarm.set now s.settings.activationDelay pending).1 with
  | error e => simp [hset, Except.map] at h
  | ok serial =>
      simp only [hset, Except.map, Except.ok.injEq] at h
      rw [← h]
      rfl

theorem outcome_activate (s : Spotlight) (region : RegionKey) :
    Outcome s (.activate region) (.ok (s.activate region).1) (s.activate region).2 := by
  cases hregistered : s.isRegistered region with
  | false =>
      rw [activate_of_not_registered hregistered]
      exact outcome_none rfl rfl
  | true =>
      simp only [activate, hregistered]
      exact outcome_activateNow rfl (active_cancelPending s) (activations_cancelPending s)

theorem outcome_activateLater (s : Spotlight) (region : RegionKey) (now : Instant) :
    Outcome s (.activateLater region now) (s.activateLater region now).1
      (s.activateLater region now).2 := by
  refine .silent ?_ (active_activateLater s region now)
    (activations_activateLater s region now)
  intro transition htransition
  cases hregistered : s.isRegistered region with
  | false =>
      rw [activateLater_of_not_registered hregistered] at htransition
      cases htransition
      rfl
  | true =>
      by_cases hactive : s.active = some region
      · rw [activateLater_of_active hregistered hactive] at htransition
        cases htransition
        rfl
      · rw [activateLater_of_not_active hregistered hactive] at htransition
        exact moves_schedule htransition

theorem outcome_deactivateLater (s : Spotlight) (region : RegionKey) (now : Instant) :
    Outcome s (.deactivateLater region now) (s.deactivateLater region now).1
      (s.deactivateLater region now).2 := by
  refine .silent ?_ (active_deactivateLater s region now)
    (activations_deactivateLater s region now)
  intro transition htransition
  cases hregistered : s.isRegistered region with
  | false =>
      rw [deactivateLater_of_not_registered hregistered] at htransition
      cases htransition
      rfl
  | true =>
      rw [deactivateLater_of_registered hregistered] at htransition
      exact moves_schedule htransition

theorem outcome_tick (s : Spotlight) (now : Instant) :
    Outcome s (.tick now) (.ok (s.tick now).1) (s.tick now).2 := by
  rcases tick_cases s now with
    ⟨-, h⟩ | ⟨pending, -, h | ⟨region, -, -, h⟩ | ⟨region, -, hactive, h⟩⟩
  · rw [h]
    exact outcome_none rfl rfl
  · rw [h]
    exact outcome_none rfl rfl
  · rw [h]
    exact outcome_activateNow rfl (active_disarm s) (activations_disarm s)
  · rw [h]
    exact .deactivated hactive rfl rfl

/-- Every call gives the highlight away and says so, takes it from its holder and says so,
or says nothing of it. -/
theorem outcome_perform (s : Spotlight) (call : Operation) :
    Outcome s call (s.perform call).1 (s.perform call).2 := by
  cases call with
  | configure settings => exact outcome_none rfl rfl
  | register region =>
      exact outcome_none (active_register s region) (activations_register s region)
  | deregister region => exact outcome_none rfl rfl
  | activate region => exact outcome_activate s region
  | activateLater region now => exact outcome_activateLater s region now
  | deactivateLater region now => exact outcome_deactivateLater s region now
  | tick now => exact outcome_tick s now
  | reset => exact outcome_none rfl rfl

/-! ## Following a run -/

/-- An answer that says nothing of the highlight reads so in the record. -/
theorem moves_transition_of_silent (record : Record)
    (h : ∀ transition, record.answer = .ok transition → moves transition = false) :
    moves record.transition = false := by
  unfold Record.transition
  cases hanswer : record.answer with
  | error e => rfl
  | ok transition => exact h transition hanswer

/-- A host that knows who holds the highlight knows it after the call, too. -/
theorem Outcome.retell_eq (h : Outcome s call answer after) :
    retell s.active ⟨call, answer, after⟩ = after.active := by
  cases h with
  | activated _ hactive _ => exact hactive.symm
  | deactivated _ hactive _ => exact hactive.symm
  | silent hsilent hactive _ =>
      rw [hactive]
      have hquiet := moves_transition_of_silent ⟨call, answer, after⟩ hsilent
      unfold retell
      split
      · rename_i hmove
        rw [hmove] at hquiet
        cases hquiet
      · rename_i hmove
        rw [hmove] at hquiet
        cases hquiet
      · rfl

/-- A call that gives the highlight to a region is counted, and no other. -/
theorem Outcome.activations_eq (h : Outcome s call answer after) :
    after.activations =
      s.activations + if Record.isActivation ⟨call, answer, after⟩ then 1 else 0 := by
  cases h with
  | activated _ _ hcount => exact hcount
  | deactivated _ _ hcount => exact hcount
  | silent hsilent _ hcount =>
      have hquiet := moves_transition_of_silent ⟨call, answer, after⟩ hsilent
      have hother : Record.isActivation ⟨call, answer, after⟩ = false := by
        unfold Record.isActivation
        split
        · rename_i hmove
          rw [hmove] at hquiet
          cases hquiet
        · rfl
      simp [hother, hcount]

/-- Following the journal of a run leads from the holder of the highlight before it to the
one after it. -/
theorem foldl_retell_journal (s : Spotlight) (calls : List Operation) :
    (s.journal calls).foldl retell s.active = (s.run calls).active := by
  induction calls generalizing s with
  | nil => rfl
  | cons call rest ih =>
      rw [journal_cons, List.foldl_cons, (outcome_perform s call).retell_eq, ih, run_cons]

/-- The activations counted during a run are those that its journal tells of. -/
theorem activations_run (s : Spotlight) (calls : List Operation) :
    (s.run calls).activations =
      s.activations + (s.journal calls).countP Record.isActivation := by
  induction calls generalizing s with
  | nil => rfl
  | cons call rest ih =>
      rw [run_cons, ih, (outcome_perform s call).activations_eq, journal_cons,
        List.countP_cons]
      omega

/-! ## The counters -/

theorem length_journal (s : Spotlight) (calls : List Operation) :
    (s.journal calls).length = calls.length := by
  induction calls generalizing s with
  | nil => rfl
  | cons call rest ih => rw [journal_cons, List.length_cons, ih, List.length_cons]

theorem issued_schedule (s : Spotlight) (pending : Pending) (now : Instant) :
    (s.schedule pending now).2.alarm.issued = s.alarm.issued + 1 := by
  simp only [schedule, Alarm.set]
  split <;> rfl

/-- A call uses up one serial number at most. -/
theorem issued_perform_le (s : Spotlight) (call : Operation) :
    (s.perform call).2.alarm.issued ≤ s.alarm.issued + 1 := by
  have hkept : ∀ {alarm : Alarm Pending}, alarm.issued = s.alarm.issued →
      alarm.issued ≤ s.alarm.issued + 1 := fun h => h ▸ Nat.le_succ _
  cases call with
  | configure settings => exact hkept rfl
  | register region => exact hkept (by rw [perform, alarm_register])
  | deregister region => exact hkept (issued_deregister s region)
  | activate region =>
      refine hkept ?_
      cases hregistered : s.isRegistered region with
      | true => rw [perform, alarm_activate hregistered, Alarm.issued_disarm]
      | false => rw [perform, activate_of_not_registered hregistered]
  | activateLater region now =>
      rw [perform]
      cases hregistered : s.isRegistered region with
      | true =>
          by_cases hactive : s.active = some region
          · rw [activateLater_of_active hregistered hactive]
            exact hkept (by rw [alarm_cancelPending, Alarm.issued_disarm])
          · exact Nat.le_of_eq (by
              rw [activateLater_of_not_active hregistered hactive, issued_schedule,
                alarm_setHighlight, alarm_cancelPending, Alarm.issued_disarm])
      | false => exact hkept (by rw [activateLater_of_not_registered hregistered])
  | deactivateLater region now =>
      rw [perform]
      cases hregistered : s.isRegistered region with
      | true =>
          rw [deactivateLater_of_registered hregistered, issued_schedule]
          split <;> simp
      | false => exact hkept (by rw [deactivateLater_of_not_registered hregistered])
  | tick now =>
      refine hkept ?_
      rw [perform]
      rcases tick_cases s now with
        ⟨-, h⟩ | ⟨pending, -, h | ⟨region, -, -, h⟩ | ⟨region, -, -, h⟩⟩
      · rw [h]
      · rw [h, disarm, Alarm.issued_disarm]
      · rw [h, alarm_activateNow, disarm, Alarm.issued_disarm]
      · rw [h]
        rfl
  | reset => exact hkept rfl

/-- A run uses up no more serial numbers than it has calls. -/
theorem issued_run_le (s : Spotlight) (calls : List Operation) :
    (s.run calls).alarm.issued ≤ s.alarm.issued + calls.length := by
  induction calls generalizing s with
  | nil => exact Nat.le_refl _
  | cons call rest ih =>
      have hfirst := issued_perform_le s call
      have hrest := ih (s.perform call).2
      rw [run_cons, List.length_cons]
      omega

/-- After every run from a fresh spotlight the holder of the highlight is the one that a
host was told of, and as many activations were counted as it was told of; after fewer than
{lit}`0x10000000000000000` calls (2^64) the counters fit into 64 bits.  The next call names
the region that loses the highlight as the host knows it, gives the highlight to a region
that does not hold it, and takes it from one that does. -/
theorem told_eq_active (settings : Settings) (calls : List Operation) :
    let s := ({ settings } : Spotlight).run calls
    let log := ({ settings } : Spotlight).journal calls
    let told := log.foldl retell none
    s.active = told ∧ s.activations = log.countP Record.isActivation ∧
      (calls.length < 0x10000000000000000 →
        s.activations < 0x10000000000000000 ∧ s.alarm.issued < 0x10000000000000000) ∧
      ∀ call,
        (∀ region previous, (s.perform call).1 = .ok (.activated region previous) →
          previous = told ∧ previous ≠ some region) ∧
        ∀ region, (s.perform call).1 = .ok (.deactivated region) → told = some region := by
  intro s log told
  have htold : told = s.active := foldl_retell_journal { settings } calls
  have hcount : s.activations = log.countP Record.isActivation := by
    simpa using activations_run { settings } calls
  refine ⟨htold.symm, hcount, ?_, ?_⟩
  · intro hfew
    have hle : log.countP Record.isActivation ≤ log.length := List.countP_le_length
    have hlength : log.length = calls.length := length_journal { settings } calls
    have hissued : s.alarm.issued ≤ 0 + calls.length := issued_run_le { settings } calls
    exact ⟨by omega, by omega⟩
  · intro call
    have houtcome := outcome_perform s call
    rw [htold]
    constructor
    · intro region previous hanswer
      rw [hanswer] at houtcome
      cases houtcome with
      | activated hnew _ _ => exact ⟨rfl, hnew⟩
      | silent hsilent _ _ => cases hsilent _ rfl
    · intro region hanswer
      rw [hanswer] at houtcome
      cases houtcome with
      | deactivated hold _ _ => exact hold
      | silent hsilent _ _ => cases hsilent _ rfl

/-- A region that was pushed out of the registry while it held the highlight is named as
the one that loses it, after a request in between has failed. -/
theorem told_of_evicted_holder :
    let first : RegionKey := .fresh 1
    let second : RegionKey := first.renewed
    let calls : List Operation :=
      [.register first, .activate first, .register second,
        .activateLater second (Instant.bound - 1)]
    let s := ({} : Spotlight).run calls
    let told := (({} : Spotlight).journal calls).foldl retell none
    s.isRegistered first = false ∧
      (s.perform (.activate second)).1 = .ok (.activated second (some first)) ∧
      some first = told ∧ s.active = told ∧
      s.activations = (({} : Spotlight).journal calls).countP Record.isActivation ∧
      s.activations < 0x10000000000000000 := by
  intro first second calls s told
  have hevicted : s.isRegistered first = false := by decide
  have hmove : (s.activate second).1 = .activated second (some first) := by decide
  have hanswer : (s.perform (.activate second)).1 =
      .ok (.activated second (some first)) := congrArg Except.ok hmove
  obtain ⟨hactive, hcount, hbounded, hnext⟩ := told_eq_active {} calls
  have hprevious := ((hnext (.activate second)).1 second (some first) hanswer).1
  exact ⟨hevicted, hanswer, hprevious, hactive, hcount, (hbounded (by decide)).1⟩

end Spotlight

end NestedHover
