import NestedHover.Clock
import NestedHover.Decimal.Positional
import NestedHover.Text.Blank
import NestedHover.Text.Numeral
import NestedHover.Text.Quoted

/-!
# Settings

How long the highlight waits before it follows the pointer, read from the
environment or given by the program, and the checks on it and on the dimensions
of drawn parts.

Main results:

- Theorem {lit}`Settings.validate_eq_ok_iff`: settings are valid exactly when
  the full delay, not its whole milliseconds, is within the limit.
- Theorem {lit}`checkDimension_eq_ok_iff`: a dimension is accepted exactly when
  it is finite and not negative.
-/

namespace NestedHover

/-! ## Errors -/

/-- Why a setting is refused. -/
inductive SettingError where
  /-- The value of an environment variable is not a number. -/
  | unreadable (variableName raw : String)
  /-- A delay is longer than its limit; both in whole milliseconds. -/
  | delayTooLong (setting : String) (millis limit : Nat)
  /-- A dimension is negative, infinite or undefined. -/
  | badDimension (setting : String) (value : Coordinate)
deriving DecidableEq, Repr

/-- The wording of a refusal. -/
def SettingError.message : SettingError → String
  | unreadable variableName raw =>
      "invalid value for " ++ variableName ++ ": " ++ Text.quoted raw
  | delayTooLong setting millis limit =>
      setting ++ " of " ++ Nat.repr millis ++ "ms exceeds the " ++
        Nat.repr limit ++ "ms limit"
  | badDimension setting value =>
      setting ++ " must be finite and non-negative, got " ++ value.text

/-! ## Dimensions -/

/-- Accepts a dimension that is finite and not negative. -/
def checkDimension (setting : String) (value : Coordinate) :
    Except SettingError Unit :=
  if value.isFinite ∧ 0 ≤ value then .ok ()
  else .error (.badDimension setting value)

theorem checkDimension_eq_ok_iff {setting : String} {value : Coordinate} :
    checkDimension setting value = .ok () ↔
      value.isFinite = true ∧ 0 ≤ value := by
  unfold checkDimension
  split <;> simp_all

/-! ## The environment -/

/-- The environment variable that holds the activation delay. -/
def delayVariable : String := "HOVERKIT_ACTIVATION_DELAY_MS"

/-- The largest number that an environment variable may hold, of 64 bits. -/
def environmentLimit : Nat := 0xFFFFFFFFFFFFFFFF

/-- The number that an environment variable holds.  A missing or blank value
counts as none; any other value that is not a number is an error, which names it
untrimmed. -/
def environmentNumber (lookup : String → Option String) (variableName : String) :
    Except SettingError (Option Nat) :=
  match lookup variableName with
  | none => .ok none
  | some raw =>
      let trimmed := Text.trimBlanks raw.toList
      if trimmed = [] then .ok none
      else
        match Text.numeral? environmentLimit trimmed with
        | some number => .ok (some number)
        | none => .error (.unreadable variableName raw)

/-! ## Settings of the highlight -/

/-- The settings of the highlight. -/
structure Settings where
  /-- The wait before a delayed activation or deactivation takes effect. -/
  activationDelay : Duration := Duration.ofMillis 100
deriving DecidableEq, Repr

namespace Settings

/-- The longest activation delay that is accepted. -/
def longestDelay : Duration := Duration.ofMillis 5000

/-- Accepts settings whose delay is within the limit. -/
def validate (s : Settings) : Except SettingError Unit :=
  if s.activationDelay ≤ longestDelay then .ok ()
  else
    .error (.delayTooLong "activation_delay" s.activationDelay.wholeMillis
      longestDelay.wholeMillis)

theorem validate_eq_ok_iff {s : Settings} :
    s.validate = .ok () ↔ s.activationDelay ≤ longestDelay := by
  unfold validate
  split <;> simp_all

/-- The default settings with what the environment overrides, if it is valid. -/
def ofEnvironment (lookup : String → Option String) :
    Except SettingError Settings := do
  let settings : Settings :=
    match ← environmentNumber lookup delayVariable with
    | some millis => ⟨Duration.ofMillis millis⟩
    | none => {}
  settings.validate
  return settings

/-- The settings from an environment whose values are bytes.  A value that is
not UTF-8 counts as missing. -/
def ofByteEnvironment (lookup : String → Option ByteArray) :
    Except SettingError Settings :=
  ofEnvironment fun variableName => (lookup variableName).bind String.fromUTF8?

end Settings

end NestedHover
