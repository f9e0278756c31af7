import NestedHover.Proofs.Spotlight.Journal

/-!
# How often time is let pass

Some hosts let time pass on every frame, others only when a deadline wakes them.  Both see
the same behaviour: what takes effect at a deadline does not depend on the moment at which
the deadline is noticed, an alarm that has gone off is not set again by it, and letting
time pass before the deadline changes nothing.

A turn is a call with the ticks that lead up to it.  Every host ticks at the time of the
call; a busy one adds ticks before and after that one, none of them later than the call.

Main results:

- Theorem {lit}`tick_earlier_cases`: an earlier tick does nothing, or what the later one
  would do.
- Theorem {lit}`tick_of_le`: after a tick an earlier one does nothing.
- Theorem {lit}`run_ticks`: any number of ticks does what the latest of them does alone.
- Theorem {lit}`busy_eq_plain`: a busy host and a plain one see the same answers, states
  and changes of the highlight, from any state on.
-/

namespace NestedHover

/-- What was due at some time is due later. -/
theorem Alarm.due?_of_le {α : Type} {a : Alarm α} {earlier later : Instant} {payload : α}
    (hle : earlier ≤ later) (h : a.due? earlier = some payload) :
    a.due? later = some payload := by
  obtain ⟨entry, harmed, hreached, hpayload⟩ := due?_eq_some_iff.mp h
  exact due?_eq_some_iff.mpr ⟨entry, harmed, Int.le_trans hreached hle, hpayload⟩

namespace Spotlight

variable {s : Spotlight} {earlier later time : Instant} {ticks : List Instant}

/-! ## Two ticks -/

/-- A tick depends on its instant only through what is due then. -/
theorem tick_congr (h : s.alarm.due? earlier = s.alarm.due? later) :
    s.tick earlier = s.tick later := by
  simp only [tick, h]

/-- An earlier tick does nothing, or what the later one would do. -/
theorem tick_earlier_cases (hle : earlier ≤ later) :
    s.tick earlier = (.none, s) ∨ s.tick earlier = s.tick later := by
  cases hdue : s.alarm.due? earlier with
  | none => exact Or.inl (tick_of_due?_eq_none hdue)
  | some pending =>
      right
      exact tick_congr (hdue.trans (Alarm.due?_of_le hle hdue).symm)

/-- After a tick an earlier one does nothing. -/
theorem tick_of_le (hle : earlier ≤ later) :
    (s.tick later).2.tick earlier = (.none, (s.tick later).2) := by
  apply tick_of_due?_eq_none
  cases hdue : s.alarm.due? later with
  | none =>
      rw [tick_of_due?_eq_none hdue]
      cases hearlier : s.alarm.due? earlier with
      | none => rfl
      | some pending => exact absurd (Alarm.due?_of_le hle hearlier) (by simp [hdue])
  | some pending =>
      have harmed : (s.tick later).2.alarm.armed = none := by simp [armed_tick, hdue]
      simp [Alarm.due?, harmed]

/-! ## What a host sees -/

/-- Whether a call only lets time pass. -/
def Operation.isTick : Operation → Bool
  | .tick _ => true
  | _ => false

/-- The calls of a run that do more than let time pass, with their answers and the states
that they left. -/
def served (s : Spotlight) (calls : List Operation) : List Record :=
  (s.journal calls).filter fun record => !record.call.isTick

/-- What the passing of time brought about during a run. -/
def firings (s : Spotlight) (calls : List Operation) : List Transition :=
  (((s.journal calls).filter fun record => record.call.isTick).map
    Record.transition).filter fun transition => transition ≠ .none

theorem served_append (s : Spotlight) (first second : List Operation) :
    s.served (first ++ second) = s.served first ++ (s.run first).served second := by
  simp [served, journal_append]

theorem firings_append (s : Spotlight) (first second : List Operation) :
    s.firings (first ++ second) = s.firings first ++ (s.run first).firings second := by
  simp [firings, journal_append]

theorem firings_tick_cons (s : Spotlight) (time : Instant) (calls : List Operation) :
    s.firings (.tick time :: calls) =
      [(s.tick time).1].filter (fun transition => transition ≠ .none) ++
        (s.tick time).2.firings calls :=
  s.firings_append [.tick time] calls

theorem served_ticks (s : Spotlight) (ticks : List Instant) :
    s.served (ticks.map .tick) = [] := by
  induction ticks generalizing s with
  | nil => rfl
  | cons instant rest ih =>
      simpa [served, Operation.isTick] using ih (s.perform (.tick instant)).2

/-! ## Any number of ticks -/

/-- Ticks that do nothing one by one do nothing together. -/
theorem run_ticks_of_idle
    (hidle : ∀ instant ∈ ticks, s.tick instant = (.none, s)) :
    s.run (ticks.map .tick) = s ∧ s.firings (ticks.map .tick) = [] := by
  induction ticks with
  | nil => exact ⟨rfl, rfl⟩
  | cons instant rest ih =>
      obtain ⟨hfirst, hrest⟩ := List.forall_mem_cons.mp hidle
      obtain ⟨hrun, hfirings⟩ := ih hrest
      rw [List.map_cons, run_cons, perform, firings_tick_cons, hfirst]
      exact ⟨hrun, by simpa using hfirings⟩

/-- Once a tick has done what the latest one does, the others do nothing. -/
theorem run_ticks_cons_of_eq {first : Instant} (hsame : s.tick first = s.tick time)
    (hlatest : ∀ instant ∈ ticks, instant ≤ time) :
    s.run ((first :: ticks).map .tick) = (s.tick time).2 ∧
      s.firings ((first :: ticks).map .tick) = s.firings [.tick time] := by
  obtain ⟨hrun, hfirings⟩ :=
    run_ticks_of_idle (s := (s.tick time).2) fun instant hinstant =>
      tick_of_le (hlatest instant hinstant)
  rw [List.map_cons, run_cons, perform, firings_tick_cons, firings_tick_cons, hsame]
  exact ⟨hrun, by rw [hfirings]; rfl⟩

/-- Any number of ticks does what the latest of them does alone. -/
theorem run_ticks (hmem : time ∈ ticks) (hlatest : ∀ instant ∈ ticks, instant ≤ time) :
    s.run (ticks.map .tick) = (s.tick time).2 ∧
      s.firings (ticks.map .tick) = s.firings [.tick time] := by
  induction ticks with
  | nil => cases hmem
  | cons first rest ih =>
      obtain ⟨hfirst, hrest⟩ := List.forall_mem_cons.mp hlatest
      rcases tick_earlier_cases hfirst with hidle | hsame
      · rcases List.mem_cons.mp hmem with rfl | hlater
        · exact run_ticks_cons_of_eq rfl hrest
        · obtain ⟨hrun, hfirings⟩ := ih hlater hrest
          rw [List.map_cons, run_cons, perform, firings_tick_cons, hidle]
          exact ⟨hrun, by simpa using hfirings⟩
      · exact run_ticks_cons_of_eq hsame hrest

/-! ## Turns -/

/-- A call, the time at which it is made, and the instants of the ticks that a busy host
adds before and after the one that goes with the call. -/
structure Turn where
  time : Instant
  call : Operation
  before : List Instant := []
  after : List Instant := []

namespace Turn

/-- The instants of all ticks of a turn, in the order in which they are made. -/
def instants (turn : Turn) : List Instant := turn.before ++ turn.time :: turn.after

/-- What a host calls that ticks once. -/
def plain (turn : Turn) : List Operation := [.tick turn.time, turn.call]

/-- What a busy host calls. -/
def busy (turn : Turn) : List Operation := turn.instants.map .tick ++ [turn.call]

/-- None of the added ticks is later than the call. -/
def IsTimely (turn : Turn) : Prop :=
  ∀ instant ∈ turn.before ++ turn.after, instant ≤ turn.time

instance (turn : Turn) : Decidable turn.IsTimely :=
  inferInstanceAs (Decidable (∀ instant ∈ turn.before ++ turn.after, _))

theorem IsTimely.le_time {turn : Turn} (h : turn.IsTimely) :
    ∀ instant ∈ turn.instants, instant ≤ turn.time := by
  intro instant hinstant
  rcases List.mem_append.mp hinstant with hbefore | hafter
  · exact h instant (List.mem_append_left _ hbefore)
  · rcases List.mem_cons.mp hafter with rfl | hafter
    · exact Int.le_refl _
    · exact h instant (List.mem_append_right _ hafter)

/-- One turn ends the same and shows the same for both hosts. -/
theorem IsTimely.busy_eq {turn : Turn} (h : turn.IsTimely) (s : Spotlight) :
    s.run turn.busy = s.run turn.plain ∧ s.served turn.busy = s.served turn.plain ∧
      s.firings turn.busy = s.firings turn.plain := by
  obtain ⟨hrun, hfirings⟩ := run_ticks (s := s) (by simp [instants]) h.le_time
  have hplain : turn.plain = [.tick turn.time] ++ [turn.call] := rfl
  have htick : s.run [.tick turn.time] = (s.tick turn.time).2 := rfl
  have hserved : s.served [.tick turn.time] = [] := served_ticks s [turn.time]
  rw [busy, hplain, run_append, run_append, served_append, served_append, firings_append,
    firings_append, served_ticks, hserved, hrun, hfirings, htick]
  exact ⟨rfl, rfl, rfl⟩

end Turn

/-! ## Runs -/

/-- From any state on a busy host and a plain one make the same calls, get the same
answers to them, and find the same states after them; and the passing of time brings about
the same for both, however many ticks the busy host adds to each turn.  The times of the
turns need not increase. -/
theorem busy_eq_plain (s : Spotlight) {turns : List Turn}
    (htimely : ∀ turn ∈ turns, turn.IsTimely) :
    s.served (turns.flatMap Turn.busy) = s.served (turns.flatMap Turn.plain) ∧
      s.firings (turns.flatMap Turn.busy) = s.firings (turns.flatMap Turn.plain) := by
  induction turns generalizing s with
  | nil => exact ⟨rfl, rfl⟩
  | cons turn rest ih =>
      obtain ⟨hturn, hrest⟩ := List.forall_mem_cons.mp htimely
      obtain ⟨hrun, hserved, hfirings⟩ := hturn.busy_eq s
      obtain ⟨ihserved, ihfirings⟩ := ih (s.run turn.busy) hrest
      rw [List.flatMap_cons, List.flatMap_cons, served_append, served_append, firings_append,
        firings_append, hserved, hfirings, ihserved, ihfirings, hrun]
      exact ⟨rfl, rfl⟩

/-- A busy host notices both deadlines, the second one set after the first has passed,
earlier than the plain one does, at ticks that are not in order. -/
theorem busy_eq_plain_across_deadlines :
    let first : RegionKey := .fresh 1
    let second : RegionKey := .fresh 2
    let turns : List Turn :=
      [⟨0, .register first, [-5], [-7]⟩, ⟨0, .register second, [], []⟩,
        ⟨0, .activate first, [], [0]⟩, ⟨10, .activateLater second 10, [3, 1], [10]⟩,
        ⟨200000000, .deactivateLater second 200000000, [150000000, 50000000], [120000000]⟩,
        ⟨400000000, .configure {}, [299999999, 310000000, 305000000], []⟩]
    (∀ turn ∈ turns, turn.IsTimely) ∧
      served {} (turns.flatMap Turn.busy) = served {} (turns.flatMap Turn.plain) ∧
      firings {} (turns.flatMap Turn.busy) =
        [.activated second (some first), .deactivated second] := by
  intro first second turns
  have htimely : ∀ turn ∈ turns, turn.IsTimely := by decide
  obtain ⟨hserved, hfirings⟩ := busy_eq_plain {} htimely
  refine ⟨htimely, hserved, ?_⟩
  rw [hfirings]
  decide

end Spotlight

end NestedHover
