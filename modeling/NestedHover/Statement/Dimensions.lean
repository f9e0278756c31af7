import NestedHover.Settings

/-!
# Dimensions of a decorator

The lengths that a decorator is drawn with.  They are checked in a fixed order,
so that of several bad dimensions always the same one is reported.

Main results:

- Theorem {lit}`Dimensions.validate_eq_ok_iff`: dimensions are valid exactly when
  each of them is finite and not negative.
-/

namespace NestedHover

/-- The lengths that a decorator is drawn with. -/
structure Dimensions where
  headingWidth : Coordinate := 40
  headingHeight : Coordinate := 25
  headingGap : Coordinate := 0
  paddingLeft : Coordinate := 0
  paddingTop : Coordinate := 0
  statementHeight : Coordinate := 30
  actionBoxWidth : Coordinate := 120
  actionBoxHeight : Coordinate := 18
deriving DecidableEq, Repr

namespace Dimensions

/-- The dimensions with their names, in the order in which they are checked. -/
def named (d : Dimensions) : List (String × Coordinate) :=
  [("heading_width", d.headingWidth),
    ("heading_height", d.headingHeight),
    ("heading_gap", d.headingGap),
    ("padding_left", d.paddingLeft),
    ("padding_top", d.paddingTop),
    ("statement_height", d.statementHeight),
    ("action_box_width", d.actionBoxWidth),
    ("action_box_height", d.actionBoxHeight)]

/-- Checks a list of named dimensions in order. -/
def checkAll : List (String × Coordinate) → Except SettingError Unit
  | [] => .ok ()
  | (setting, value) :: rest =>
      match checkDimension setting value with
      | .ok () => checkAll rest
      | .error e => .error e

/-- Accepts dimensions that are finite and not negative. -/
def validate (d : Dimensions) : Except SettingError Unit := checkAll d.named

theorem checkAll_eq_ok_iff {named : List (String × Coordinate)} :
    checkAll named = .ok () ↔
      ∀ entry ∈ named, entry.2.isFinite = true ∧ 0 ≤ entry.2 := by
  induction named with
  | nil => simp [checkAll]
  | cons entry rest ih =>
      obtain ⟨setting, value⟩ := entry
      rw [List.forall_mem_cons, ← ih, ← @checkDimension_eq_ok_iff setting value]
      cases h : checkDimension setting value with
      | ok => simp [checkAll, h]
      | error e => simp [checkAll, h]

/-- Dimensions are valid exactly when each is finite and not negative. -/
theorem validate_eq_ok_iff {d : Dimensions} :
    d.validate = .ok () ↔ ∀ entry ∈ d.named, entry.2.isFinite = true ∧ 0 ≤ entry.2 :=
  checkAll_eq_ok_iff

end Dimensions

end NestedHover
