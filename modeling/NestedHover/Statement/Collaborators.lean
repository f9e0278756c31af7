import NestedHover.Statement.ActionBox

/-!
# Collaborators of a decorator

A decorator changes no program and opens no file.  It asks the model of its
statement and the navigator of the source text to, and either may refuse with a
message.  Both are given by their type, so any model and any navigator will do.

Main results:

- Theorem {lit}`Collaborators.navigator_toggleBreakpoint`: toggling a breakpoint
  leaves the navigator alone.
- Theorem {lit}`Collaborators.model_jumpToSource`: jumping to the source leaves
  the model alone.
-/

namespace NestedHover

/-- The refusal of a collaborator, in its own words. -/
structure ModelError where
  message : String
deriving DecidableEq, Repr

/-- The model of a statement.  Each change answers whether it was made, with the
model after it. -/
class StatementModel (M : Type) where
  /-- Whether the statement has a breakpoint. -/
  hasBreakpoint : M → Bool
  addBreakpoint : M → Except ModelError Unit × M
  removeBreakpoint : M → Except ModelError Unit × M
  /-- Removes the statement from the program. -/
  remove : M → Except ModelError Unit × M

/-- A navigator that shows the source text of a statement. -/
class SourceNavigator (N M : Type) where
  goToSource : N → M → Except ModelError Unit × N

/-- The collaborators that a decorator works with. -/
structure Collaborators (M N : Type) where
  model : M
  navigator : N
deriving DecidableEq, Repr

namespace Collaborators

variable {M N : Type} [StatementModel M] [SourceNavigator N M]

/-- Removes the statement from the program. -/
def delete (c : Collaborators M N) : Except ModelError Unit × Collaborators M N :=
  let outcome := StatementModel.remove c.model
  (outcome.1, { c with model := outcome.2 })

/-- Removes the breakpoint if there is one and adds one if there is none; answers
whether the statement has one then. -/
def toggleBreakpoint (c : Collaborators M N) :
    Except ModelError Bool × Collaborators M N :=
  if StatementModel.hasBreakpoint c.model then
    let outcome := StatementModel.removeBreakpoint c.model
    (outcome.1.map fun _ => false, { c with model := outcome.2 })
  else
    let outcome := StatementModel.addBreakpoint c.model
    (outcome.1.map fun _ => true, { c with model := outcome.2 })

/-- Shows the source text of the statement. -/
def jumpToSource (c : Collaborators M N) :
    Except ModelError Unit × Collaborators M N :=
  let outcome := SourceNavigator.goToSource c.navigator c.model
  (outcome.1, { c with navigator := outcome.2 })

/-- Carries out an action. -/
def perform (c : Collaborators M N) : Action → Except ModelError Unit × Collaborators M N
  | .delete => c.delete
  | .toggleBreakpoint =>
      let outcome := c.toggleBreakpoint
      (outcome.1.map fun _ => (), outcome.2)
  | .jumpToSource => c.jumpToSource

omit [SourceNavigator N M] in
@[simp] theorem navigator_toggleBreakpoint (c : Collaborators M N) :
    c.toggleBreakpoint.2.navigator = c.navigator := by
  unfold toggleBreakpoint
  split <;> rfl

omit [StatementModel M] in
@[simp] theorem model_jumpToSource (c : Collaborators M N) :
    c.jumpToSource.2.model = c.model := rfl

end Collaborators

end NestedHover
