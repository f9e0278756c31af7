import NestedHover.Alarm
import NestedHover.Proofs.Runs
import Mathlib.Data.List.Induction

/-!
# What becomes of a payload

A payload that was armed stays in the alarm, under its serial number and with its deadline,
until one call takes it out: one that answers it, or one that arms another payload in its
place.  From then on the alarm holds nothing or what was armed under a later number.  An
attempt to arm whose deadline has no instant uses up a number as well, and leaves what is
armed as it was.  Time may go backwards all along.

Main results:

- Theorem {lit}`outcome_perform`: a call arms, or fails to arm, or answers the armed payload,
  or does nothing.
- Theorem {lit}`fate_of_armed`: an armed payload stays as it was armed, or leaves with one
  call of the run.
- Theorem {lit}`armedLast_of_armed`: what is armed after a run was armed by the last call of
  the run that armed anything.
- Theorem {lit}`payloads_conserved`: all of this for a fresh alarm.
-/

namespace NestedHover

namespace Alarm

variable {α : Type}

/-! ## Runs of an alarm -/

/-- A call that changes an alarm. -/
inductive Call (α : Type) where
  | set (now : Instant) (delay : Duration) (payload : α)
  | cancel
  | cancelIf (condition : α → Bool)
  | poll (now : Instant)

/-- Whether a call attempts to arm a payload. -/
def Call.isSet : Call α → Bool
  | set _ _ _ => true
  | _ => false

/-- Whether a call arms a payload: its deadline has an instant. -/
def Call.arms : Call α → Bool
  | set now delay _ => now + (delay : Int) < Instant.bound
  | _ => false

/-- A call that does not attempt to arm arms nothing. -/
theorem Call.arms_eq_false {call : Call α} (h : call.isSet = false) : call.arms = false := by
  cases call with
  | set => cases h
  | _ => rfl

/-- What a call answers: the serial number of an attempt to arm, or a payload that was taken
out. -/
inductive Answer (α : Type) where
  | serial (outcome : Except ClockError Nat)
  | payload (outcome : Option α)

/-- Carries out one call. -/
def perform (a : Alarm α) : Call α → Answer α × Alarm α
  | .set now delay payload =>
      let outcome := a.set now delay payload
      (.serial outcome.1, outcome.2)
  | .cancel => (.payload a.cancel.1, a.cancel.2)
  | .cancelIf condition =>
      let outcome := a.cancelIf condition
      (.payload outcome.1, outcome.2)
  | .poll now => (.payload (a.poll now).1, (a.poll now).2)

/-- The alarm after one call. -/
def step (a : Alarm α) (call : Call α) : Alarm α := (a.perform call).2

/-- The alarm after a sequence of calls. -/
def run (a : Alarm α) (calls : List (Call α)) : Alarm α := calls.foldl step a

theorem run_append (a : Alarm α) (first second : List (Call α)) :
    a.run (first ++ second) = (a.run first).run second :=
  List.foldl_append

/-! ## What a call does -/

variable {a : Alarm α} {call : Call α} {calls : List (Call α)} {entry : Entry α}
  {answer : Answer α} {next : Alarm α}

/-- What a call answers and what it leaves. -/
inductive Outcome (a : Alarm α) : Call α → Answer α → Alarm α → Prop where
  /-- A payload is armed. -/
  | armed {now : Instant} {delay : Duration} {payload : α}
      (h : now + (delay : Int) < Instant.bound) :
      Outcome a (.set now delay payload) (.serial (.ok (a.issued + 1)))
        ⟨a.issued + 1, some ⟨a.issued + 1, now + (delay : Int), payload⟩⟩
  /-- The deadline has no instant. -/
  | failed {now : Instant} {delay : Duration} {payload : α}
      (h : ¬ now + (delay : Int) < Instant.bound) :
      Outcome a (.set now delay payload) (.serial (.error .deadlineOverflow))
        ⟨a.issued + 1, a.armed⟩
  /-- The armed payload is taken out. -/
  | handed {call : Call α} {entry : Entry α} (hcall : call.isSet = false)
      (h : a.armed = some entry) :
      Outcome a call (.payload (some entry.payload)) ⟨a.issued, none⟩
  /-- Nothing happens. -/
  | quiet {call : Call α} (hcall : call.isSet = false) : Outcome a call (.payload none) a

theorem perform_set_of_lt (a : Alarm α) {now : Instant} {delay : Duration}
    (h : now + (delay : Int) < Instant.bound) (payload : α) :
    a.perform (.set now delay payload) =
      (.serial (.ok (a.issued + 1)),
        ⟨a.issued + 1, some ⟨a.issued + 1, now + (delay : Int), payload⟩⟩) := by
  have hafter : now.after delay = .ok (now + (delay : Int)) :=
    Instant.after_eq_ok_iff.mpr ⟨rfl, h⟩
  simp only [perform, set_of_after_eq_ok hafter]

theorem perform_set_of_not_lt (a : Alarm α) {now : Instant} {delay : Duration}
    (h : ¬ now + (delay : Int) < Instant.bound) (payload : α) :
    a.perform (.set now delay payload) =
      (.serial (.error .deadlineOverflow), ⟨a.issued + 1, a.armed⟩) := by
  have hafter : now.after delay = .error .deadlineOverflow := if_neg h
  simp only [perform, set_of_after_eq_error hafter]

/-- A poll answers the armed payload exactly when its deadline has been reached. -/
theorem perform_poll_iff {now : Instant} {payload : α} :
    (a.perform (.poll now)).1 = .payload (some payload) ↔
      ∃ entry, a.armed = some entry ∧ entry.deadline ≤ now ∧ entry.payload = payload := by
  rw [← due?_eq_some_iff]
  simp only [perform, poll, Answer.payload.injEq]
  cases a.due? now <;> simp

/-- Every call arms, or fails to arm, or answers the armed payload, or does nothing. -/
theorem outcome_perform (a : Alarm α) (call : Call α) :
    Outcome a call (a.perform call).1 (a.perform call).2 := by
  rcases a with ⟨issued, armed⟩
  cases call with
  | set now delay payload =>
      by_cases h : now + (delay : Int) < Instant.bound
      · rw [perform_set_of_lt _ h]
        exact .armed h
      · rw [perform_set_of_not_lt _ h]
        exact .failed h
  | cancel =>
      cases armed with
      | none => exact .quiet rfl
      | some entry => exact .handed rfl rfl
  | cancelIf condition =>
      cases armed with
      | none => exact .quiet rfl
      | some entry =>
          cases hcondition : condition entry.payload with
          | true =>
              simp only [perform, cancelIf, payload?, Option.map_some, hcondition, if_true]
              exact .handed rfl rfl
          | false =>
              simp only [perform, cancelIf, payload?, Option.map_some, hcondition]
              exact .quiet rfl
  | poll now =>
      cases armed with
      | none => exact .quiet rfl
      | some entry =>
          by_cases hdue : entry.deadline ≤ now
          · simp only [perform, poll, due?, Option.filter, hdue, decide_true, if_true,
              Option.map_some]
            exact .handed rfl rfl
          · simp only [perform, poll, due?, Option.filter, hdue, decide_false]
            exact .quiet rfl

/-! ## Serial numbers -/

/-- Every attempt to arm uses up one serial number, and nothing else does. -/
theorem Outcome.issued_eq (h : Outcome a call answer next) :
    next.issued = a.issued + if call.isSet then 1 else 0 := by
  cases h with
  | armed hinstant => rfl
  | failed hinstant => rfl
  | handed hcall harmed => simp [hcall]
  | quiet hcall => simp [hcall]

theorem issued_run (a : Alarm α) (calls : List (Call α)) :
    (a.run calls).issued = a.issued + calls.countP Call.isSet := by
  induction calls generalizing a with
  | nil => rfl
  | cons call rest ih =>
      have hrun : a.run (call :: rest) = (a.step call).run rest := rfl
      rw [hrun, ih, step, (outcome_perform a call).issued_eq, List.countP_cons]
      omega

/-- What is armed has one of the numbers used up. -/
def Numbered (a : Alarm α) : Prop := ∀ entry, a.armed = some entry → entry.serial ≤ a.issued

theorem Outcome.numbered (h : Outcome a call answer next) (hnumbered : Numbered a) :
    Numbered next := by
  intro entry hentry
  cases h with
  | armed hinstant =>
      cases hentry
      exact Nat.le_refl _
  | failed hinstant => exact Nat.le_succ_of_le (hnumbered entry hentry)
  | handed hcall harmed => cases hentry
  | quiet hcall => exact hnumbered entry hentry

theorem numbered_run (calls : List (Call α)) : Numbered (({} : Alarm α).run calls) :=
  List.foldlRecOn (motive := Numbered) calls step nofun
    fun a hnumbered call _ => (outcome_perform a call).numbered hnumbered

/-- A number is past: it was used up, and what is armed has a later one. -/
structure Past (serial : Nat) (a : Alarm α) : Prop where
  used : serial ≤ a.issued
  lt_serial : ∀ entry, a.armed = some entry → serial < entry.serial

/-- A number that is past stays so. -/
theorem Outcome.past {serial : Nat} (h : Outcome a call answer next) (hpast : Past serial a) :
    Past serial next := by
  cases h with
  | armed hinstant =>
      refine ⟨Nat.le_succ_of_le hpast.used, ?_⟩
      rintro entry ⟨⟩
      exact Nat.lt_succ_of_le hpast.used
  | failed hinstant => exact ⟨Nat.le_succ_of_le hpast.used, hpast.lt_serial⟩
  | handed hcall harmed => exact ⟨hpast.used, nofun⟩
  | quiet hcall => exact hpast

theorem Past.step {serial : Nat} (h : Past serial a) (call : Call α) :
    Past serial (a.step call) :=
  (outcome_perform a call).past h

/-! ## The fate of a payload -/

/-- A call keeps what is armed and answers nothing, or it takes out what is armed, whose number
is past from then on. -/
theorem Outcome.keeps_or_ends (h : Outcome a call answer next) (hnumbered : Numbered a)
    (harmed : a.armed = some entry) :
    ((∀ payload, answer ≠ .payload (some payload)) ∧ call.arms = false ∧
        next.armed = some entry) ∨
      ((answer = .payload (some entry.payload) ∨ call.arms = true) ∧
        Past entry.serial next) := by
  have hle : entry.serial ≤ a.issued := hnumbered entry harmed
  cases h with
  | armed hinstant =>
      refine Or.inr ⟨Or.inr (decide_eq_true hinstant), Nat.le_succ_of_le hle, ?_⟩
      rintro other ⟨⟩
      exact Nat.lt_succ_of_le hle
  | failed hinstant => exact Or.inl ⟨nofun, decide_eq_false hinstant, harmed⟩
  | handed hcall hother =>
      cases hother.symm.trans harmed
      exact Or.inr ⟨Or.inl rfl, hle, nofun⟩
  | quiet hcall => exact Or.inl ⟨nofun, Call.arms_eq_false hcall, harmed⟩

/-- A call that neither answers a payload nor arms one, while the given entry is armed. -/
def Keeps (entry : Entry α) (a : Alarm α) (call : Call α) : Prop :=
  a.armed = some entry ∧ (∀ payload, (a.perform call).1 ≠ .payload (some payload)) ∧
    call.arms = false

/-- A call that takes the given entry out: it answers its payload, or it arms another one in
its place. -/
def Ends (entry : Entry α) (a : Alarm α) (call : Call α) : Prop :=
  a.armed = some entry ∧
    ((a.perform call).1 = .payload (some entry.payload) ∨ call.arms = true)

/-- What becomes of an armed entry in a run. -/
inductive Fate (entry : Entry α) (a : Alarm α) (calls : List (Call α)) : Prop where
  /-- It stays armed as it is. -/
  | stays (hkept : Along step (Keeps entry) a calls) (harmed : (a.run calls).armed = some entry)
  /-- It stays armed as it is up to one call, which takes it out for good. -/
  | leaves {before : List (Call α)} {call : Call α} {after : List (Call α)}
      (hsplit : calls = before ++ call :: after) (hkept : Along step (Keeps entry) a before)
      (hends : Ends entry (a.run before) call)
      (hpast : Along step (fun a _ => Past entry.serial a) ((a.run before).step call) after)
      (hend : Past entry.serial (a.run calls))

/-- An armed entry stays as it is, or it stays so up to one call and never comes back. -/
theorem fate_of_armed (hnumbered : Numbered a) (harmed : a.armed = some entry)
    (calls : List (Call α)) : Fate entry a calls := by
  induction calls generalizing a with
  | nil => exact .stays trivial harmed
  | cons call rest ih =>
      have houtcome := outcome_perform a call
      rcases houtcome.keeps_or_ends hnumbered harmed with
        ⟨hnothing, harms, hstill⟩ | ⟨hends, hpast⟩
      · have hkeeps : Keeps entry a call := ⟨harmed, hnothing, harms⟩
        cases ih (houtcome.numbered hnumbered) hstill with
        | stays hkept hend => exact .stays ⟨hkeeps, hkept⟩ hend
        | @leaves before last after hsplit hkept hends hpast hend =>
            have hwhole : call :: rest = (call :: before) ++ last :: after :=
              congrArg (call :: ·) hsplit
            exact .leaves hwhole ⟨hkeeps, hkept⟩ hends hpast hend
      · -- the first call ends it, so every later state is past its number
        have halong : Along step (fun a _ => Past entry.serial a) (a.step call) rest :=
          along_of_forall (fun _ call h => h.step call) hpast rest
        have hend : Past entry.serial ((a.step call).run rest) :=
          List.foldlRecOn (motive := Past entry.serial) rest step hpast
            fun _ h call _ => h.step call
        exact .leaves (List.nil_append _).symm trivial ⟨harmed, hends⟩ halong hend

/-! ## The latest payload -/

/-- The entry was armed by the last call of a run of a fresh alarm that armed anything, under
the number of that attempt. -/
def ArmedLast (calls : List (Call α)) (entry : Entry α) : Prop :=
  ∃ (earlier : List (Call α)) (now : Instant) (delay : Duration) (payload : α)
      (later : List (Call α)), calls = earlier ++ .set now delay payload :: later ∧
    now + (delay : Int) < Instant.bound ∧
    entry = ⟨earlier.countP Call.isSet + 1, now + (delay : Int), payload⟩ ∧
    ∀ call ∈ later, call.arms = false

theorem ArmedLast.concat (h : ArmedLast calls entry) (hcall : call.arms = false) :
    ArmedLast (calls ++ [call]) entry := by
  rcases h with ⟨earlier, now, delay, payload, later, rfl, hinstant, hentry, hlater⟩
  refine ⟨earlier, now, delay, payload, later ++ [call], by simp, hinstant, hentry, ?_⟩
  intro other hother
  rcases List.mem_append.mp hother with hold | hlast
  · exact hlater other hold
  · rwa [List.mem_singleton.mp hlast]

/-- A payload that a call answers was armed, and is not any more. -/
theorem Outcome.armed_of_payload {payload : α} (h : Outcome a call answer next)
    (hanswer : answer = .payload (some payload)) :
    (∃ entry, a.armed = some entry ∧ entry.payload = payload) ∧ next.armed = none := by
  cases h with
  | armed hinstant => cases hanswer
  | failed hinstant => cases hanswer
  | handed hcall harmed =>
      cases hanswer
      exact ⟨⟨_, harmed, rfl⟩, rfl⟩
  | quiet hcall => cases hanswer

/-- What is armed after a call was armed before it, or by it. -/
theorem Outcome.armed_cases (h : Outcome a call answer next) (hentry : next.armed = some entry) :
    (a.armed = some entry ∧ call.arms = false) ∨
      ∃ (now : Instant) (delay : Duration) (payload : α), call = .set now delay payload ∧
        now + (delay : Int) < Instant.bound ∧
        entry = ⟨a.issued + 1, now + (delay : Int), payload⟩ := by
  cases h with
  | armed hinstant =>
      cases hentry
      exact Or.inr ⟨_, _, _, rfl, hinstant, rfl⟩
  | failed hinstant => exact Or.inl ⟨hentry, decide_eq_false hinstant⟩
  | handed hcall harmed => cases hentry
  | quiet hcall => exact Or.inl ⟨hentry, Call.arms_eq_false hcall⟩

/-- What is armed after a run was armed by the last call of the run that armed anything. -/
theorem armedLast_of_armed (harmed : (({} : Alarm α).run calls).armed = some entry) :
    ArmedLast calls entry := by
  induction calls using List.reverseRecOn generalizing entry with
  | nil => cases harmed
  | append_singleton earlier call ih =>
      rw [run_append] at harmed
      rcases (outcome_perform _ call).armed_cases harmed with
        ⟨hbefore, harms⟩ | ⟨now, delay, payload, rfl, hinstant, hentry⟩
      · exact (ih hbefore).concat harms
      · rw [issued_run, Nat.zero_add] at hentry
        exact ⟨earlier, now, delay, payload, [], rfl, hinstant, hentry, nofun⟩

/-- Whatever was armed in the course of a run is what is armed at its end, or its number is
smaller. -/
theorem serial_lt_of_armed {earlier later : List (Call α)} {old : Entry α}
    (hbefore : (({} : Alarm α).run earlier).armed = some old)
    (hafter : (({} : Alarm α).run (earlier ++ later)).armed = some entry) :
    old = entry ∨ old.serial < entry.serial := by
  rw [run_append] at hafter
  cases fate_of_armed (numbered_run earlier) hbefore later with
  | stays hkept harmed =>
      rw [harmed] at hafter
      exact Or.inl (Option.some.inj hafter)
  | leaves hsplit hkept hends hpast hend => exact Or.inr (hend.lt_serial entry hafter)

/-- In every run of fewer than 2^64 calls of a fresh alarm, at any instants: the k-th attempt
to arm uses number k, which fits into 64 bits.  If its deadline has no instant it leaves what
is armed as it was; otherwise it arms its payload, which stays armed as it is or does so up to
one call that answers it or arms another payload, and never comes back.  Whatever a call
answers was armed and is not any more.  A poll answers a payload exactly when one is armed and
the instant is at or after its deadline, the end of the delay of the call that armed it.  What
is armed at the end was armed by the last call that armed anything, and its number is larger
than those of all entries armed before. -/
theorem payloads_conserved (calls : List (Call α)) (hfew : calls.length < 0x10000000000000000) :
    let a := ({} : Alarm α).run calls
    (∀ (earlier : List (Call α)) (now : Instant) (delay : Duration) (payload : α)
        (later : List (Call α)), calls = earlier ++ .set now delay payload :: later →
      let before := ({} : Alarm α).run earlier
      let serial := earlier.countP Call.isSet + 1
      let entry : Entry α := ⟨serial, now + (delay : Int), payload⟩
      serial < 0x10000000000000000 ∧
        (now + (delay : Int) < Instant.bound →
          before.perform (.set now delay payload) =
              (.serial (.ok serial), ⟨serial, some entry⟩) ∧
            Fate entry ⟨serial, some entry⟩ later) ∧
        (¬ now + (delay : Int) < Instant.bound →
          before.perform (.set now delay payload) =
            (.serial (.error .deadlineOverflow), ⟨serial, before.armed⟩))) ∧
      (∀ call payload, (a.perform call).1 = .payload (some payload) →
        (∃ entry, a.armed = some entry ∧ entry.payload = payload) ∧
          (a.step call).armed = none) ∧
      (∀ now payload, (a.perform (.poll now)).1 = .payload (some payload) ↔
        ∃ entry, ArmedLast calls entry ∧ a.armed = some entry ∧ entry.deadline ≤ now ∧
          entry.payload = payload) ∧
      ∀ entry, a.armed = some entry → ArmedLast calls entry ∧
        ∀ earlier later old, calls = earlier ++ later →
          (({} : Alarm α).run earlier).armed = some old →
          old = entry ∨ old.serial < entry.serial := by
  intro a
  refine ⟨?_, fun call _ => (outcome_perform a call).armed_of_payload, ?_, ?_⟩
  · rintro earlier now delay payload later rfl before serial entry
    have hissued : before.issued + 1 = serial := by
      rw [issued_run, Nat.zero_add]
    have hcount : earlier.countP Call.isSet ≤ earlier.length := List.countP_le_length
    rw [List.length_append, List.length_cons] at hfew
    refine ⟨by omega, fun hinstant => ?_, fun hinstant => ?_⟩
    · rw [perform_set_of_lt before hinstant, hissued]
      refine ⟨rfl, fate_of_armed ?_ rfl later⟩
      rintro other ⟨⟩
      exact Nat.le_refl _
    · rw [perform_set_of_not_lt before hinstant, hissued]
  · intro now payload
    rw [perform_poll_iff]
    constructor
    · rintro ⟨entry, harmed, hdue⟩
      exact ⟨entry, armedLast_of_armed harmed, harmed, hdue⟩
    · rintro ⟨entry, -, harmed, hdue⟩
      exact ⟨entry, harmed, hdue⟩
  · intro entry harmed
    refine ⟨armedLast_of_armed harmed, ?_⟩
    rintro earlier later old rfl hbefore
    exact serial_lt_of_armed hbefore harmed

/-- One payload is armed, a second one cannot be, and a third one takes the place of the first,
which is cancelled in vain then; time goes backwards in between.  The first payload has left
with the third call to arm, and the third payload leaves when it falls due. -/
theorem payloads_conserved_past_failure :
    let never : Duration := 0x8000000000000000 * 1000000000
    let calls : List (Call Nat) :=
      [.set 10 100 7, .set 5 never 8, .poll 50, .set 20 100 9, .cancelIf (· = 7)]
    let a := ({} : Alarm Nat).run calls
    let first : Entry Nat := ⟨1, 110, 7⟩
    let third : Entry Nat := ⟨3, 120, 9⟩
    calls.length < 0x10000000000000000 ∧
      (({} : Alarm Nat).run [.set 10 100 7]).perform (.set 5 never 8) =
        (.serial (.error .deadlineOverflow), ⟨2, some first⟩) ∧
      Fate first ⟨1, some first⟩ (calls.drop 1) ∧ Fate third ⟨3, some third⟩ (calls.drop 4) ∧
      a.armed = some third ∧ ArmedLast calls third ∧
      (a.perform (.poll 120)).1 = .payload (some 9) := by
  intro never calls a first third
  have hfew : calls.length < 0x10000000000000000 := by decide
  have hthird : a.armed = some third := by decide
  obtain ⟨hsets, -, hpoll, hlast⟩ := payloads_conserved calls hfew
  have hfirst := (hsets [] 10 100 7 _ rfl).2.1 (by decide)
  have hfailed := (hsets [.set 10 100 7] 5 never 8 _ rfl).2.2 (by decide)
  have hreplaced := (hsets [.set 10 100 7, .set 5 never 8, .poll 50] 20 100 9 _ rfl).2.1
    (by decide)
  have harmedLast : ArmedLast calls third := (hlast third hthird).1
  exact ⟨hfew, hfailed, hfirst.2, hreplaced.2, hthird, harmedLast,
    (hpoll 120 9).mpr ⟨third, harmedLast, hthird, by decide, rfl⟩⟩

end Alarm

end NestedHover
