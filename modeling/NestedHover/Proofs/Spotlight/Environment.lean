import NestedHover.Proofs.Spotlight.Exclusivity
import NestedHover.Proofs.Spotlight.Journal
import NestedHover.Proofs.Text.Numerals

/-!
# Delays from the environment

The environment may give the activation delay in milliseconds.  A value that is missing or
blank gives the default, a numeral gives the delay that it denotes if that is short enough,
and every other value is refused for what it is.

Settings that pass their check delay a change by five seconds at most.  So no request ever
asks for a deadline beyond the last instant, as long as instants stay at or below 2^62
seconds, half of what can be counted.

Main results:

- Theorem {lit}`Settings.ofEnvironment_of_numeral`: what a numeral in the environment gives.
- Theorem {lit}`Settings.ofEnvironment_of_not_numeral`: any other value is refused untrimmed.
- Theorem {lit}`Spotlight.succeeds_of_isMild`: with valid settings no call at such an instant
  fails.
- Theorem {lit}`Spotlight.environment_is_safe`: how every environment is read, and that no
  call of a run with valid settings fails.
-/

namespace NestedHover

/-! ## Reading the environment -/

namespace Settings

variable {lookup : String → Option String} {raw : String} {millis : Nat}

/-- The settings with a delay of the given number of milliseconds, or the default ones. -/
def ofNumber : Option Nat → Settings
  | some millis => ⟨Duration.ofMillis millis⟩
  | none => {}

/-- The settings are those of the number read, if they are valid. -/
theorem ofEnvironment_eq (lookup : String → Option String) :
    ofEnvironment lookup = (environmentNumber lookup delayVariable).bind fun number =>
      (ofNumber number).validate.map fun _ => ofNumber number := by
  unfold ofEnvironment
  simp only [bind_pure_comp]
  rfl

/-- Without a number in the environment the settings are the default ones. -/
theorem ofEnvironment_of_none (h : environmentNumber lookup delayVariable = .ok none) :
    ofEnvironment lookup = .ok {} := by
  rw [ofEnvironment_eq, h]
  rfl

theorem ofEnvironment_of_missing (h : lookup delayVariable = none) :
    ofEnvironment lookup = .ok {} :=
  ofEnvironment_of_none (by simp [environmentNumber, h])

/-- A blank value counts as missing. -/
theorem ofEnvironment_of_blank (h : lookup delayVariable = some raw)
    (hblank : ∀ c ∈ raw.toList, Text.isBlank c = true) : ofEnvironment lookup = .ok {} :=
  ofEnvironment_of_none
    (by simp [environmentNumber, h, Text.trimBlanks_eq_nil_iff.mpr hblank])

/-- A delay of whole milliseconds is within the limit up to 5000 of them. -/
theorem validate_ofMillis (millis : Nat) :
    validate ⟨Duration.ofMillis millis⟩ =
      if millis ≤ 5000 then .ok () else .error (.delayTooLong "activation_delay" millis 5000) := by
  have hwithin : Duration.ofMillis millis ≤ longestDelay ↔ millis ≤ 5000 :=
    Nat.mul_le_mul_right_iff (by decide)
  unfold validate
  by_cases hshort : millis ≤ 5000
  · rw [if_pos (hwithin.mpr hshort), if_pos hshort]
  · rw [if_neg (mt hwithin.mp hshort), if_neg hshort, longestDelay,
      Duration.wholeMillis_ofMillis, Duration.wholeMillis_ofMillis]

/-- What a numeral in the environment gives. -/
theorem ofEnvironment_of_numeral (h : lookup delayVariable = some raw)
    (hdenotes : Text.Denotes (Text.trimBlanks raw.toList) millis)
    (hle : millis ≤ environmentLimit) :
    ofEnvironment lookup =
      if millis ≤ 5000 then .ok ⟨Duration.ofMillis millis⟩
      else .error (.delayTooLong "activation_delay" millis 5000) := by
  have hread : Text.numeral? environmentLimit (Text.trimBlanks raw.toList) = some millis :=
    Text.numeral?_eq_some_iff_denotes.mpr ⟨hdenotes, hle⟩
  have hne : Text.trimBlanks raw.toList ≠ [] := by
    intro hnil
    rw [hnil] at hread
    cases hread
  have hnumber : environmentNumber lookup delayVariable = .ok (some millis) := by
    simp [environmentNumber, h, hne, hread]
  rw [ofEnvironment_eq, hnumber, Except.bind, ofNumber, validate_ofMillis]
  split <;> rfl

/-- A value that is neither blank nor a numeral within the limit is refused untrimmed. -/
theorem ofEnvironment_of_not_numeral (h : lookup delayVariable = some raw)
    (hne : Text.trimBlanks raw.toList ≠ [])
    (hnot : ∀ number, Text.Denotes (Text.trimBlanks raw.toList) number →
      environmentLimit < number) :
    ofEnvironment lookup = .error (.unreadable delayVariable raw) := by
  have hnumber : environmentNumber lookup delayVariable =
      .error (.unreadable delayVariable raw) := by
    simp [environmentNumber, h, hne, Text.numeral?_eq_none_iff.mpr hnot]
  rw [ofEnvironment_eq, hnumber]
  rfl

/-- Settings that come from the environment are valid. -/
theorem validate_of_ofEnvironment {settings : Settings}
    (h : ofEnvironment lookup = .ok settings) : settings.validate = .ok () := by
  rw [ofEnvironment_eq] at h
  cases hnumber : environmentNumber lookup delayVariable with
  | error e =>
      rw [hnumber] at h
      cases h
  | ok number =>
      rw [hnumber, Except.bind] at h
      cases hvalid : (ofNumber number).validate with
      | error e =>
          rw [hvalid] at h
          cases h
      | ok _ =>
          rw [hvalid] at h
          cases h
          exact hvalid

end Settings

namespace Spotlight

variable {s : Spotlight} {call : Operation}

/-! ## Calls that keep clear of the last instant -/

/-- A call that gives valid settings, if it gives any, and is made at or before 2^62 seconds,
if it is made at any instant. -/
def Operation.IsMild : Operation → Prop
  | .configure settings => settings.validate = .ok ()
  | .activateLater _ now | .deactivateLater _ now | .tick now =>
      now ≤ 0x4000000000000000 * 1000000000
  | _ => True

theorem settings_perform (s : Spotlight) (call : Operation) :
    (s.perform call).2.settings =
      match call with
      | .configure settings => settings
      | _ => s.settings := by
  cases call with
  | register region =>
      simp only [perform, Spotlight.register]
      split <;> rfl
  | _ => simp [perform, configure, deregister, reset]

/-- A mild call leaves valid settings. -/
theorem validate_perform (hvalid : s.settings.validate = .ok ()) (hmild : call.IsMild) :
    (s.perform call).2.settings.validate = .ok () := by
  rw [settings_perform]
  cases call with
  | configure settings => exact hmild
  | _ => exact hvalid

/-- With valid settings the end of the delay has an instant. -/
theorem deadline_lt_bound (hvalid : s.settings.validate = .ok ()) {now : Instant}
    (hnow : now ≤ 0x4000000000000000 * 1000000000) :
    now + (s.settings.activationDelay : Int) < Instant.bound := by
  have hclear : ∀ (instant : Int) (delay : Nat), instant ≤ 0x4000000000000000 * 1000000000 →
      delay ≤ 5000 * 1000000 →
      instant + (delay : Int) < 0x8000000000000000 * 1000000000 := by
    intro instant delay hinstant hdelay
    omega
  exact hclear now _ hnow (Settings.validate_eq_ok_iff.mp hvalid)

/-- With valid settings no mild call fails. -/
theorem succeeds_of_isMild (hvalid : s.settings.validate = .ok ()) (hmild : call.IsMild) :
    s.Succeeds call := by
  cases call with
  | activateLater region now => exact isOk_activateLater (deadline_lt_bound hvalid hmild) region
  | deactivateLater region now =>
      exact isOk_deactivateLater (deadline_lt_bound hvalid hmild) region
  | _ => rfl

/-- No call of a run with valid settings fails, if all of them are mild. -/
theorem isOk_of_mem_journal {calls : List Operation} (hvalid : s.settings.validate = .ok ())
    (hmild : ∀ call ∈ calls, call.IsMild) :
    ∀ record ∈ s.journal calls, record.answer.isOk = true := by
  induction calls generalizing s with
  | nil => exact fun _ hrecord => absurd hrecord List.not_mem_nil
  | cons call rest ih =>
      have hcall := hmild call List.mem_cons_self
      intro record hrecord
      rw [journal_cons] at hrecord
      rcases List.mem_cons.mp hrecord with rfl | hlater
      · exact succeeds_of_isMild hvalid hcall
      · exact ih (validate_perform hvalid hcall)
          (fun call hrest => hmild call (List.mem_cons_of_mem _ hrest)) record hlater

/-- Every environment is read as follows.  Without the variable for the delay, or if its value
is blank, the settings are the default ones.  Otherwise the value is trimmed of blanks: if
that denotes a number of milliseconds up to 5000 it gives the settings with just that delay,
one above 5000 and within 64 bits is refused as too long, and whatever else the value is, it
is refused untrimmed.  What is read is valid, and in every run that starts with valid settings
and changes them only to valid ones, with no instant beyond 2^62 seconds, no call fails for
want of an instant for its deadline. -/
theorem environment_is_safe (lookup : String → Option String) :
    (lookup delayVariable = none → Settings.ofEnvironment lookup = .ok {}) ∧
      (∀ raw, lookup delayVariable = some raw →
        let trimmed := Text.trimBlanks raw.toList
        Text.Trims raw.toList trimmed ∧
          ((∀ c ∈ raw.toList, Text.isBlank c = true) →
            Settings.ofEnvironment lookup = .ok {}) ∧
          (∀ millis, Text.Denotes trimmed millis → millis ≤ 5000 →
            Settings.ofEnvironment lookup = .ok ⟨Duration.ofMillis millis⟩) ∧
          (∀ millis, Text.Denotes trimmed millis → 5000 < millis → millis ≤ 2 ^ 64 - 1 →
            Settings.ofEnvironment lookup =
              .error (.delayTooLong "activation_delay" millis 5000)) ∧
          ((∃ c ∈ raw.toList, Text.isBlank c = false) →
            (∀ millis, Text.Denotes trimmed millis → 2 ^ 64 - 1 < millis) →
            Settings.ofEnvironment lookup = .error (.unreadable delayVariable raw))) ∧
      (∀ settings, Settings.ofEnvironment lookup = .ok settings →
        settings.validate = .ok ()) ∧
      ∀ (settings : Settings) (calls : List Operation), settings.validate = .ok () →
        (∀ call ∈ calls, call.IsMild) →
        ∀ record ∈ ({ settings } : Spotlight).journal calls, record.answer.isOk = true := by
  have hlimit : environmentLimit = 2 ^ 64 - 1 := rfl
  refine ⟨Settings.ofEnvironment_of_missing, ?_,
    fun settings => Settings.validate_of_ofEnvironment,
    fun settings calls hvalid hmild => isOk_of_mem_journal hvalid hmild⟩
  intro raw hraw trimmed
  refine ⟨Text.trims_trimBlanks raw.toList, Settings.ofEnvironment_of_blank hraw, ?_, ?_, ?_⟩
  · intro millis hdenotes hshort
    rw [Settings.ofEnvironment_of_numeral hraw hdenotes (by omega), if_pos hshort]
  · intro millis hdenotes hlong hwithin
    rw [Settings.ofEnvironment_of_numeral hraw hdenotes (by omega), if_neg (by omega)]
  · rintro ⟨c, hc, hinside⟩ hnot
    apply Settings.ofEnvironment_of_not_numeral hraw _ (hlimit ▸ hnot)
    intro hnil
    rw [Text.trimBlanks_eq_nil_iff.mp hnil c hc] at hinside
    cases hinside

/-- A numeral with a sign and a zero in front, between a no-break space and a space, gives a
delay of 250 milliseconds.  A run that starts with it, changes to the longest delay and is at
the last instant by then makes two delayed requests that do not fail. -/
theorem environment_is_safe_for_padded_numeral :
    let raw := String.ofList ['\u00a0', '+', '0', '2', '5', '0', ' ']
    let lookup : String → Option String := fun _ => some raw
    let settings : Settings := ⟨Duration.ofMillis 250⟩
    let last : Instant := 0x4000000000000000 * 1000000000
    let region : RegionKey := .fresh 1
    let calls : List Operation :=
      [.register region, .deactivateLater region last, .configure ⟨Settings.longestDelay⟩,
        .activateLater region last]
    Text.Denotes (Text.trimBlanks raw.toList) 250 ∧
      Settings.ofEnvironment lookup = .ok settings ∧ settings.validate = .ok () ∧
      (∀ call ∈ calls, call.IsMild) ∧
      ∀ record ∈ ({ settings } : Spotlight).journal calls, record.answer.isOk = true := by
  intro raw lookup settings last region calls
  have htrimmed : Text.trimBlanks raw.toList = ['+', '0', '2', '5', '0'] := by
    rw [String.toList_ofList]
    decide
  have hdenotes : Text.Denotes (Text.trimBlanks raw.toList) 250 := by
    rw [htrimmed]
    exact ⟨['0', '2', '5', '0'], Or.inr rfl, by decide, List.all_eq_true.mp (by decide), rfl⟩
  have hlongest : Settings.validate ⟨Settings.longestDelay⟩ = .ok () :=
    Settings.validate_eq_ok_iff.mpr (Nat.le_refl _)
  have hmild : ∀ call ∈ calls, call.IsMild := by
    simp only [calls, List.forall_mem_cons]
    exact ⟨trivial, Int.le_refl last, hlongest, Int.le_refl last, nofun⟩
  obtain ⟨-, hread, hvalid, hrun⟩ := environment_is_safe lookup
  have hsettings : Settings.ofEnvironment lookup = .ok settings :=
    (hread raw rfl).2.2.1 250 hdenotes (by decide)
  have hsound : settings.validate = .ok () := hvalid settings hsettings
  exact ⟨hdenotes, hsettings, hsound, hmild, hrun settings calls hsound hmild⟩

end Spotlight

end NestedHover
