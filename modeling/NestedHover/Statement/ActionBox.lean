import NestedHover.Geometry.Rectangle
import NestedHover.Spotlight.Highlight

/-!
# The action box

The action box is a strip of one button for each action, side by side.  It is
visible while its region is shown, also while the region is about to be hidden.
Disabled buttons stay visible and cover what lies behind them.

Main results:

- Theorem {lit}`ActionSet.ofMask_mask`: a set of actions is recovered from its
  mask.
- Theorem {lit}`ActionBox.hit?_eq_none_of_hidden`: an action box that is not
  visible is never hit.
- Theorem {lit}`ActionBox.isEnabled_of_hit?_eq_some`: only enabled buttons are
  hit.
-/

namespace NestedHover

/-- What can be done to a statement from its action box. -/
inductive Action where
  | delete
  | toggleBreakpoint
  | jumpToSource
deriving DecidableEq, Repr

namespace Action

/-- All actions in the order of their buttons. -/
def all : List Action := [delete, toggleBreakpoint, jumpToSource]

/-- The name of the action in messages. -/
def name : Action → String
  | delete => "Delete"
  | toggleBreakpoint => "ToggleBreakpoint"
  | jumpToSource => "JumpToSource"

end Action

/-- A set of actions. -/
structure ActionSet where
  delete : Bool := false
  toggleBreakpoint : Bool := false
  jumpToSource : Bool := false
deriving DecidableEq, Repr

namespace ActionSet

/-- Whether an action belongs to the set. -/
def contains (s : ActionSet) : Action → Bool
  | .delete => s.delete
  | .toggleBreakpoint => s.toggleBreakpoint
  | .jumpToSource => s.jumpToSource

/-- The set as a bit mask, one bit an action from the lowest on. -/
def mask (s : ActionSet) : Nat :=
  s.delete.toNat + 2 * s.toggleBreakpoint.toNat + 4 * s.jumpToSource.toNat

/-- The set of a bit mask; bits that stand for no action are ignored. -/
def ofMask (mask : Nat) : ActionSet :=
  ⟨mask.testBit 0, mask.testBit 1, mask.testBit 2⟩

@[simp] theorem ofMask_mask (s : ActionSet) : ofMask s.mask = s := by
  obtain ⟨a, b, c⟩ := s
  cases a <;> cases b <;> cases c <;> rfl

end ActionSet

/-- The action box of a statement. -/
structure ActionBox where
  bounds : Rectangle
  /-- The actions that are refused. -/
  disabled : ActionSet := {}
  /-- Whether the statement has a breakpoint. -/
  hasBreakpoint : Bool := false
deriving DecidableEq, Repr

namespace ActionBox

/-- Whether an action box is visible under the highlight of its region. -/
def isVisible (h : Highlight) : Bool := h.isShown

/-- Whether an action is not refused. -/
def isEnabled (b : ActionBox) (action : Action) : Bool :=
  !b.disabled.contains action

/-- The text on the button of an action. -/
def label (b : ActionBox) : Action → String
  | .delete => "Delete"
  | .toggleBreakpoint =>
      if b.hasBreakpoint then "Remove Breakpoint" else "Add Breakpoint"
  | .jumpToSource => "Jump to Source"

/-- The buttons from left to right, each action with its rectangle. -/
def buttons (b : ActionBox) : List (Action × Rectangle) :=
  Action.all.zip (b.bounds.columns Action.all.length)

/-- The action whose button a click at a point triggers. -/
def hit? (b : ActionBox) (h : Highlight) (p : Point) : Option Action :=
  if isVisible h && b.bounds.contains p then
    match b.buttons.find? fun button => button.2.contains p with
    | some (action, _) => if b.isEnabled action then some action else none
    | none => none
  else none

theorem hit?_eq_none_of_hidden (b : ActionBox) {h : Highlight}
    (hidden : h.isShown = false) (p : Point) : b.hit? h p = none := by
  simp [hit?, isVisible, hidden]

theorem isEnabled_of_hit?_eq_some {b : ActionBox} {h : Highlight} {p : Point}
    {action : Action} (hhit : b.hit? h p = some action) :
    b.isEnabled action = true := by
  unfold hit? at hhit
  split at hhit
  · split at hhit
    · split at hhit
      · rename_i henabled
        cases hhit
        exact henabled
      · cases hhit
    · cases hhit
  · cases hhit

end ActionBox

end NestedHover
