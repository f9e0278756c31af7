import NestedHover.Statement.Collaborators
import NestedHover.Statement.Decorator

/-!
# Actions and clicks

An action is carried out only while the action box is visible and the action is
not disabled.  A click on the breakpoint marker toggles the breakpoint whether the
action box is visible or not, even when the toggle is disabled there; any other
click acts through the button that it hits, if it hits one.

Main results:

- Theorem {lit}`Decorator.click_of_layout?_eq_none`: nothing is clicked before the
  decorator has been laid out.
- Theorem {lit}`Decorator.trigger_of_hidden` and
  {lit}`Decorator.trigger_of_disabled`: what refuses an action, in this order.
-/

namespace NestedHover

/-- Why a decorator does not do what it is asked to. -/
inductive DecoratorError where
  /-- The action box is not visible. -/
  | actionBoxHidden
  /-- The button of the action is disabled. -/
  | actionDisabled (action : Action)
  /-- The decorator has not been laid out. -/
  | notLaidOut
  /-- A collaborator refused. -/
  | model (cause : ModelError)
deriving DecidableEq, Repr

namespace DecoratorError

/-- The wording of the error. -/
def message : DecoratorError → String
  | actionBoxHidden => "action box is not visible"
  | actionDisabled action => "action " ++ action.name ++ " is disabled"
  | notLaidOut => "decorator has not been laid out"
  | model cause => "model operation failed: " ++ cause.message

/-- The refusal that caused the error. -/
def cause? : DecoratorError → Option ModelError
  | model cause => some cause
  | _ => none

end DecoratorError

namespace Decorator

variable {M N : Type} [StatementModel M] [SourceNavigator N M]

/-- Carries out an action from the action box. -/
def trigger (d : Decorator) (s : Spotlight) (action : Action)
    (c : Collaborators M N) : Except DecoratorError Unit × Collaborators M N :=
  if !d.isActionBoxVisible s then (.error .actionBoxHidden, c)
  else if d.disabled.contains action then (.error (.actionDisabled action), c)
  else
    let outcome := c.perform action
    (outcome.1.mapError .model, outcome.2)

/-- Carries out what a click at a point asks for; answers the action, if the click
hit one. -/
def click (d : Decorator) (s : Spotlight) (p : Point) (c : Collaborators M N) :
    Except DecoratorError (Option Action) × Collaborators M N :=
  match d.layout? with
  | none => (.error .notLaidOut, c)
  | some layout =>
      if layout.marker.any fun marker => marker.contains p then
        let outcome := c.toggleBreakpoint
        ((outcome.1.map fun _ => some Action.toggleBreakpoint).mapError .model, outcome.2)
      else
        let box : ActionBox :=
          ⟨layout.actionBox, d.disabled, StatementModel.hasBreakpoint c.model⟩
        match box.hit? (d.highlight s) p with
        | some action =>
            let outcome := d.trigger s action c
            (outcome.1.map fun _ => some action, outcome.2)
        | none => (.ok none, c)

theorem trigger_of_hidden {d : Decorator} {s : Spotlight}
    (h : d.isActionBoxVisible s = false) (action : Action) (c : Collaborators M N) :
    d.trigger s action c = (.error .actionBoxHidden, c) := by
  simp [trigger, h]

theorem trigger_of_disabled {d : Decorator} {s : Spotlight} {action : Action}
    (hvisible : d.isActionBoxVisible s = true)
    (hdisabled : d.disabled.contains action = true) (c : Collaborators M N) :
    d.trigger s action c = (.error (.actionDisabled action), c) := by
  simp [trigger, hvisible, hdisabled]

theorem click_of_layout?_eq_none {d : Decorator} (h : d.layout? = none)
    (s : Spotlight) (p : Point) (c : Collaborators M N) :
    d.click s p c = (.error .notLaidOut, c) := by
  simp [click, h]

end Decorator

end NestedHover
