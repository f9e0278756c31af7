import NestedHover.Proofs.Spotlight.Exclusivity
import NestedHover.Statement.Click

/-!
# A click asks for at most one thing

A decorator changes nothing by itself: whatever a click does, it does by a request to
the model of the statement or to the navigator.  A click that hits the breakpoint marker
sends one request, a click that hits the button of a permitted action sends one, and any
other click sends none and leaves both collaborators as they are.

The requests are counted by collaborators that note what they are asked and pass it on to
the ones inside, so the count is taken of the click itself, whatever the collaborators
do with a request.

Main results:

- Theorem {lit}`Collaborators.perform_eq_ask`: an action is carried out by one request.
- Theorem {lit}`Decorator.click_eq_plain`: the notes change nothing else.
- Theorem {lit}`Decorator.Asks.ran`: the action that a click asks for is carried out, and
  by nothing but its request.
- Theorem {lit}`Decorator.click_runs_at_most_one_action`: all that a click can do.
-/

namespace NestedHover

/-! ## Requests -/

/-- What a decorator can ask its collaborators for. -/
inductive Request where
  | addBreakpoint
  | removeBreakpoint
  | remove
  | goToSource
deriving DecidableEq, Repr

namespace Collaborators

variable {M N : Type} [StatementModel M] [SourceNavigator N M]

/-- Passes a request on to the collaborator that it is meant for. -/
def ask (c : Collaborators M N) : Request → Except ModelError Unit × Collaborators M N
  | .addBreakpoint =>
      let outcome := StatementModel.addBreakpoint c.model
      (outcome.1, { c with model := outcome.2 })
  | .removeBreakpoint =>
      let outcome := StatementModel.removeBreakpoint c.model
      (outcome.1, { c with model := outcome.2 })
  | .remove =>
      let outcome := StatementModel.remove c.model
      (outcome.1, { c with model := outcome.2 })
  | .goToSource =>
      let outcome := SourceNavigator.goToSource c.navigator c.model
      (outcome.1, { c with navigator := outcome.2 })

omit [SourceNavigator N M] in
/-- The request that carries an action out. -/
def requestFor (c : Collaborators M N) : Action → Request
  | .delete => .remove
  | .toggleBreakpoint =>
      if StatementModel.hasBreakpoint c.model then .removeBreakpoint else .addBreakpoint
  | .jumpToSource => .goToSource

/-- Toggling the breakpoint is one request, answered by what the statement has then. -/
theorem toggleBreakpoint_eq_ask (c : Collaborators M N) :
    c.toggleBreakpoint =
      ((c.ask (c.requestFor .toggleBreakpoint)).1.map
          fun _ => !StatementModel.hasBreakpoint c.model,
        (c.ask (c.requestFor .toggleBreakpoint)).2) := by
  unfold toggleBreakpoint requestFor
  cases hmarked : StatementModel.hasBreakpoint c.model <;> rfl

/-- An action is carried out by one request. -/
theorem perform_eq_ask (c : Collaborators M N) (action : Action) :
    c.perform action = c.ask (c.requestFor action) := by
  cases action with
  | delete => rfl
  | jumpToSource => rfl
  | toggleBreakpoint =>
      change ((c.toggleBreakpoint.1.map fun _ => ()), c.toggleBreakpoint.2) = _
      rw [toggleBreakpoint_eq_ask]
      apply Prod.ext
      · cases (c.ask (c.requestFor .toggleBreakpoint)).1 <;> rfl
      · rfl

end Collaborators

/-! ## Collaborators that note their requests -/

/-- A collaborator with the requests that it has received so far. -/
structure Logged (α : Type) where
  inner : α
  log : List Request := []
deriving DecidableEq, Repr

namespace Logged

/-- Notes a request next to its outcome. -/
def note {α : Type} (l : Logged α) (request : Request) (outcome : Except ModelError Unit × α) :
    Except ModelError Unit × Logged α :=
  (outcome.1, ⟨outcome.2, l.log ++ [request]⟩)

instance {M : Type} [StatementModel M] : StatementModel (Logged M) where
  hasBreakpoint l := StatementModel.hasBreakpoint l.inner
  addBreakpoint l := l.note .addBreakpoint (StatementModel.addBreakpoint l.inner)
  removeBreakpoint l := l.note .removeBreakpoint (StatementModel.removeBreakpoint l.inner)
  remove l := l.note .remove (StatementModel.remove l.inner)

instance {M N : Type} [SourceNavigator N M] : SourceNavigator (Logged N) (Logged M) where
  goToSource l model := l.note .goToSource (SourceNavigator.goToSource l.inner model.inner)

end Logged

namespace Collaborators

variable {M N : Type}

/-- The collaborators, set up to note the requests they receive. -/
def logged (c : Collaborators M N) : Collaborators (Logged M) (Logged N) :=
  ⟨{ inner := c.model }, { inner := c.navigator }⟩

/-- The collaborators without their notes. -/
def plain (c : Collaborators (Logged M) (Logged N)) : Collaborators M N :=
  ⟨c.model.inner, c.navigator.inner⟩

/-- The requests that were noted by either collaborator. -/
def requests (c : Collaborators (Logged M) (Logged N)) : List Request :=
  c.model.log ++ c.navigator.log

@[simp] theorem plain_logged (c : Collaborators M N) : c.logged.plain = c := rfl

@[simp] theorem requests_logged (c : Collaborators M N) : c.logged.requests = [] := rfl

variable [StatementModel M] [SourceNavigator N M]

omit [SourceNavigator N M] in
@[simp] theorem requestFor_logged (c : Collaborators M N) (action : Action) :
    c.logged.requestFor action = c.requestFor action := rfl

/-- Noting a request does not change what comes of it. -/
theorem ask_logged (c : Collaborators M N) (request : Request) :
    (c.logged.ask request).1 = (c.ask request).1 ∧
      (c.logged.ask request).2.plain = (c.ask request).2 ∧
      (c.logged.ask request).2.requests = [request] := by
  cases request <;> exact ⟨rfl, rfl, rfl⟩

end Collaborators

/-! ## What a click asks for -/

/-- Whether the marker is drawn, and the point lies on it. -/
def Layout.IsMarkedAt (l : Layout) (p : Point) : Prop :=
  ∃ marker, l.marker = some marker ∧ marker.contains p = true

/-- The first button from the left that the point lies on is the button of the action. -/
def Layout.IsButtonAt (l : Layout) (p : Point) (action : Action) : Prop :=
  ∃ rectangle before after,
    Action.all.zip (l.actionBox.columns Action.all.length) =
        before ++ (action, rectangle) :: after ∧
      rectangle.contains p = true ∧ ∀ button ∈ before, button.2.contains p = false

namespace Decorator

variable {d : Decorator} {s : Spotlight} {layout : Layout} {p : Point} {action : Action}
variable {M N : Type} [StatementModel M] [SourceNavigator N M]

/-- What a click at a point asks for: the marker toggles the breakpoint whether the
action box is shown or not; a button needs the action box to be shown and must not be
disabled. -/
inductive Asks (d : Decorator) (s : Spotlight) (layout : Layout) (p : Point) :
    Action → Prop where
  | marker : layout.IsMarkedAt p → Asks d s layout p .toggleBreakpoint
  | button {action : Action} : ¬ layout.IsMarkedAt p →
      layout.actionBox.contains p = true → layout.IsButtonAt p action →
      (s.highlight d.region).isShown = true → d.disabled.contains action = false →
      Asks d s layout p action

/-- The outcome of a click that carried an action out: the request for it was sent, and
the click failed if the request did. -/
structure Ran (c : Collaborators M N) (action : Action)
    (outcome : Except DecoratorError (Option Action) × Collaborators M N) : Prop where
  after_eq : outcome.2 = (c.ask (c.requestFor action)).2
  ok_iff : outcome.1 = .ok (some action) ↔ (c.ask (c.requestFor action)).1 = .ok ()
  error_iff : ∀ cause, outcome.1 = .error (.model cause) ↔
    (c.ask (c.requestFor action)).1 = .error cause

theorem isMarkedAt_iff :
    layout.IsMarkedAt p ↔ (layout.marker.any fun marker => marker.contains p) = true := by
  simp [Layout.IsMarkedAt, Option.any_eq_true]

/-- The button that a click finds is the first one from the left under the point. -/
theorem find?_eq_some_iff_isButtonAt (disabled : ActionSet) (hasBreakpoint : Bool) :
    (∃ rectangle, (ActionBox.mk layout.actionBox disabled hasBreakpoint).buttons.find?
        (fun button => button.2.contains p) = some (action, rectangle)) ↔
      layout.IsButtonAt p action := by
  simp only [List.find?_eq_some_iff_append, Bool.not_eq_true', ActionBox.buttons]
  constructor
  · rintro ⟨rectangle, hcontains, before, after, hbuttons, hbefore⟩
    exact ⟨rectangle, before, after, hbuttons, hcontains, hbefore⟩
  · rintro ⟨rectangle, before, after, hbuttons, hcontains, hbefore⟩
    exact ⟨rectangle, hcontains, before, after, hbuttons, hbefore⟩

/-- The action box is hit exactly where the button of a permitted action is. -/
theorem hit?_eq_some_iff {mark : Highlight} (disabled : ActionSet) (hasBreakpoint : Bool) :
    (ActionBox.mk layout.actionBox disabled hasBreakpoint).hit? mark p = some action ↔
      mark.isShown = true ∧ layout.actionBox.contains p = true ∧
        layout.IsButtonAt p action ∧ disabled.contains action = false := by
  rw [← find?_eq_some_iff_isButtonAt disabled hasBreakpoint]
  constructor
  · intro hhit
    have henabled := ActionBox.isEnabled_of_hit?_eq_some hhit
    unfold ActionBox.hit? ActionBox.isVisible at hhit
    split at hhit
    · rename_i hover
      rw [Bool.and_eq_true] at hover
      split at hhit
      · rename_i found rectangle hfind
        split at hhit
        · cases hhit
          have hpermitted : disabled.contains action = false := by
            simpa [ActionBox.isEnabled] using henabled
          exact ⟨hover.1, hover.2, ⟨rectangle, hfind⟩, hpermitted⟩
        · cases hhit
      · cases hhit
    · cases hhit
  · rintro ⟨hshown, hover, ⟨rectangle, hfind⟩, henabled⟩
    simp [ActionBox.hit?, ActionBox.isVisible, ActionBox.isEnabled, hshown, hover, hfind, henabled]

/-! ## What a click does -/

/-- An action that is permitted is carried out by its request. -/
theorem trigger_of_permitted (hshown : (s.highlight d.region).isShown = true)
    (henabled : d.disabled.contains action = false) (c : Collaborators M N) :
    d.trigger s action c =
      ((c.ask (c.requestFor action)).1.mapError .model, (c.ask (c.requestFor action)).2) := by
  have hvisible : d.isActionBoxVisible s = true := hshown
  simp [trigger, hvisible, henabled, Collaborators.perform_eq_ask]

/-- A click that asks for an action is the request for it. -/
theorem Asks.click_eq (hlayout : d.layout? = some layout) (h : Asks d s layout p action)
    (c : Collaborators M N) :
    d.click s p c =
      (((c.ask (c.requestFor action)).1.map fun _ => some action).mapError .model,
        (c.ask (c.requestFor action)).2) := by
  unfold click
  rw [hlayout]
  cases h with
  | marker hmarked =>
      simp only [isMarkedAt_iff.mp hmarked, if_true, Collaborators.toggleBreakpoint_eq_ask]
      cases (c.ask (c.requestFor .toggleBreakpoint)).1 <;> rfl
  | button hmarked hover hbutton hshown henabled =>
      have hhit := (hit?_eq_some_iff d.disabled (StatementModel.hasBreakpoint c.model)).mpr
        ⟨hshown, hover, hbutton, henabled⟩
      rw [isMarkedAt_iff] at hmarked
      simp only [hmarked, highlight, hhit, trigger_of_permitted hshown henabled]
      cases (c.ask (c.requestFor action)).1 <;> rfl

/-- A click that asks for nothing answers that it hit nothing. -/
theorem click_of_not_asks (hlayout : d.layout? = some layout)
    (h : ∀ action, ¬ Asks d s layout p action) (c : Collaborators M N) :
    d.click s p c = (.ok none, c) := by
  unfold click
  rw [hlayout]
  have hmarked : ¬ layout.IsMarkedAt p := fun hmarked => h _ (.marker hmarked)
  have hmissed : (ActionBox.mk layout.actionBox d.disabled
      (StatementModel.hasBreakpoint c.model)).hit? (d.highlight s) p = none := by
    rw [Option.eq_none_iff_forall_ne_some]
    intro action hhit
    obtain ⟨hshown, hover, hbutton, henabled⟩ := (hit?_eq_some_iff _ _).mp hhit
    exact h action (.button hmarked hover hbutton hshown henabled)
  rw [isMarkedAt_iff] at hmarked
  simp only [hmarked, hmissed]
  rfl

/-- A click fails before the first layout, asks for nothing, or asks for an action. -/
theorem click_cases (d : Decorator) (s : Spotlight) (p : Point) :
    d.layout? = none ∨ ∃ layout, d.layout? = some layout ∧
      ((∀ action, ¬ Asks d s layout p action) ∨ ∃ action, Asks d s layout p action) := by
  cases hlayout : d.layout? with
  | none => exact Or.inl rfl
  | some layout =>
      refine Or.inr ⟨layout, rfl, ?_⟩
      rw [← not_exists]
      exact (Classical.em _).symm

/-- The notes change nothing else. -/
theorem click_eq_plain (d : Decorator) (s : Spotlight) (p : Point) (c : Collaborators M N) :
    d.click s p c = ((d.click s p c.logged).1, (d.click s p c.logged).2.plain) := by
  rcases click_cases d s p with hlayout | ⟨layout, hlayout, hnothing | ⟨action, hasks⟩⟩
  · simp [click_of_layout?_eq_none hlayout]
  · simp [click_of_not_asks hlayout hnothing]
  · obtain ⟨hanswer, hafter, -⟩ := c.ask_logged (c.requestFor action)
    rw [hasks.click_eq hlayout, hasks.click_eq hlayout, c.requestFor_logged, hanswer, hafter]

/-- The action that a click asks for is carried out, and by nothing but its request. -/
theorem Asks.ran (hlayout : d.layout? = some layout) (h : Asks d s layout p action)
    (c : Collaborators M N) :
    Ran c action (d.click s p c) ∧
      (d.click s p c.logged).2.requests = [c.requestFor action] := by
  constructor
  · rw [h.click_eq hlayout]
    refine ⟨rfl, ?_, ?_⟩
    · cases (c.ask (c.requestFor action)).1 with
      | ok => exact ⟨fun _ => rfl, fun _ => rfl⟩
      | error cause => exact ⟨nofun, nofun⟩
    · intro cause
      cases (c.ask (c.requestFor action)).1 with
      | ok => exact ⟨nofun, nofun⟩
      | error refusal =>
          change Except.error (DecoratorError.model refusal) = .error (.model cause) ↔ _
          simp
  · rw [h.click_eq hlayout, c.requestFor_logged]
    exact (c.ask_logged _).2.2

/-- A click that carried an action out fails with the refusal of a collaborator or not at
all. -/
theorem Ran.ne_error {c : Collaborators M N} {refusal : DecoratorError}
    {outcome : Except DecoratorError (Option Action) × Collaborators M N}
    (h : Ran c action outcome) (hown : refusal.cause? = none) :
    outcome.1 ≠ .error refusal := by
  intro herror
  cases hasked : (c.ask (c.requestFor action)).1 with
  | ok => cases herror.symm.trans (h.ok_iff.mpr hasked)
  | error cause =>
      cases herror.symm.trans ((h.error_iff cause).mpr hasked)
      cases hown

theorem Ran.ne_ok_none {c : Collaborators M N}
    {outcome : Except DecoratorError (Option Action) × Collaborators M N}
    (h : Ran c action outcome) : outcome.1 ≠ .ok none := by
  intro hmissed
  cases hasked : (c.ask (c.requestFor action)).1 with
  | ok => cases hmissed.symm.trans (h.ok_iff.mpr hasked)
  | error cause => cases hmissed.symm.trans ((h.error_iff cause).mpr hasked)

/-- The three outcomes of a click: it fails before the first layout, it asks for nothing,
or the action that it asks for is carried out. -/
theorem click_outcome (d : Decorator) (s : Spotlight) (p : Point) (c : Collaborators M N) :
    (d.layout? = none ∧ d.click s p c = (.error .notLaidOut, c) ∧
        (d.click s p c.logged).2.requests = []) ∨
      (d.layout? ≠ none ∧ d.click s p c = (.ok none, c) ∧
        (d.click s p c.logged).2.requests = []) ∨
      ∃ layout action, d.layout? = some layout ∧ Asks d s layout p action ∧
        Ran c action (d.click s p c) ∧
        (d.click s p c.logged).2.requests = [c.requestFor action] := by
  rcases click_cases d s p with hlayout | ⟨layout, hlayout, hnothing | ⟨action, hasks⟩⟩
  · left
    simp [hlayout, click_of_layout?_eq_none hlayout]
  · right; left
    simp [hlayout, click_of_not_asks hlayout hnothing]
  · right; right
    exact ⟨layout, action, hlayout, hasks, hasks.ran hlayout c⟩

/-- A click fails for want of a layout exactly before the first one. -/
theorem click_eq_notLaidOut_iff (d : Decorator) (s : Spotlight) (p : Point)
    (c : Collaborators M N) :
    (d.click s p c).1 = .error .notLaidOut ↔ d.layout? = none := by
  rcases click_outcome d s p c with ⟨hlayout, hclick, -⟩ | ⟨hlayout, hclick, -⟩ |
    ⟨layout, action, hlayout, -, hran, -⟩
  · simp [hclick, hlayout]
  · simp [hclick, hlayout]
  · have hne : (d.click s p c).1 ≠ .error .notLaidOut := hran.ne_error rfl
    simp [hne, hlayout]

/-- A click is never refused the way an action is that is triggered by itself. -/
theorem click_ne_refused (d : Decorator) (s : Spotlight) (p : Point)
    (c : Collaborators M N) {refusal : DecoratorError} (hown : refusal.cause? = none)
    (hne : refusal ≠ .notLaidOut) : (d.click s p c).1 ≠ .error refusal := by
  rcases click_outcome d s p c with ⟨-, hclick, -⟩ | ⟨-, hclick, -⟩ |
    ⟨layout, action, -, -, hran, -⟩
  · simpa [hclick] using hne.symm
  · simp [hclick]
  · exact hran.ne_error hown

/-- A click that fails for want of a layout or hits nothing sends no request. -/
theorem click_of_missed {d : Decorator} {s : Spotlight} {p : Point} {c : Collaborators M N}
    (h : (d.click s p c).1 = .error .notLaidOut ∨ (d.click s p c).1 = .ok none) :
    (d.click s p c).2 = c ∧ (d.click s p c.logged).2.requests = [] := by
  rcases click_outcome d s p c with ⟨-, hclick, hsent⟩ | ⟨-, hclick, hsent⟩ |
    ⟨layout, action, -, -, hran, -⟩
  · exact ⟨by rw [hclick], hsent⟩
  · exact ⟨by rw [hclick], hsent⟩
  · rcases h with hfailed | hmissed
    · exact absurd hfailed (hran.ne_error rfl)
    · exact absurd hmissed hran.ne_ok_none

/-- A click that does not miss asked for an action, and sent the request for it. -/
theorem exists_asks_of_not_missed {d : Decorator} {s : Spotlight} {p : Point}
    {c : Collaborators M N}
    (h : ¬ ((d.click s p c).1 = .error .notLaidOut ∨ (d.click s p c).1 = .ok none)) :
    ∃ layout action, d.layout? = some layout ∧ Asks d s layout p action ∧
      Ran c action (d.click s p c) ∧
      (d.click s p c.logged).2.requests = [c.requestFor action] := by
  rcases click_outcome d s p c with ⟨-, hclick, -⟩ | ⟨-, hclick, -⟩ | hran
  · exact absurd (Or.inl (by rw [hclick])) h
  · exact absurd (Or.inr (by rw [hclick])) h
  · exact hran

/-- Whatever run of calls led to the spotlight, and whatever the decorator, the point and
the collaborators: a click fails for want of a layout exactly before the first one, and
it is never refused as hidden or disabled.  If it fails so, or hits nothing, then no
request was sent and the collaborators are as they were.  In every other case it asked for
an action, and the one request for that action was sent; the click failed if and only if
the request did.  A click that needs the action box to be shown needs its region to hold
the highlight.

An action that is triggered by itself is refused if the region is not shown, otherwise if
it is disabled, and no request is sent then either. -/
theorem click_runs_at_most_one_action (settings : Settings)
    (calls : List Spotlight.Operation) (d : Decorator) (p : Point) (c : Collaborators M N) :
    let s := ({ settings } : Spotlight).run calls
    let outcome := d.click s p c
    let requests := (d.click s p c.logged).2.requests
    (outcome.1 = .error .notLaidOut ↔ d.layout? = none) ∧
      outcome.1 ≠ .error .actionBoxHidden ∧
      (∀ action, outcome.1 ≠ .error (.actionDisabled action)) ∧
      (outcome.1 = .error .notLaidOut ∨ outcome.1 = .ok none →
        outcome.2 = c ∧ requests = []) ∧
      (¬ (outcome.1 = .error .notLaidOut ∨ outcome.1 = .ok none) →
        ∃ layout action, d.layout? = some layout ∧ Asks d s layout p action ∧
          Ran c action outcome ∧ requests = [c.requestFor action]) ∧
      (∀ layout action, d.layout? = some layout → Asks d s layout p action →
        Ran c action outcome ∧ requests = [c.requestFor action]) ∧
      ((s.highlight d.region).isShown = true → s.active = some d.region) ∧
      ∀ action,
        ((s.highlight d.region).isShown = false →
          d.trigger s action c = (.error .actionBoxHidden, c) ∧
            (d.trigger s action c.logged).2.requests = []) ∧
        ((s.highlight d.region).isShown = true → d.disabled.contains action = true →
          d.trigger s action c = (.error (.actionDisabled action), c) ∧
            (d.trigger s action c.logged).2.requests = []) := by
  intro s outcome requests
  have hexclusive : s.Exclusive := (Spotlight.blank_fresh settings).exclusive.run calls
  refine ⟨click_eq_notLaidOut_iff d s p c, click_ne_refused d s p c rfl nofun,
    fun _ => click_ne_refused d s p c rfl nofun, click_of_missed, exists_asks_of_not_missed,
    fun layout action hlayout hasks => hasks.ran hlayout c, hexclusive d.region, ?_⟩
  intro action
  constructor
  · intro hhidden
    have hvisible : d.isActionBoxVisible s = false := hhidden
    simp [trigger_of_hidden hvisible]
  · intro hshown hdisabled
    have hvisible : d.isActionBoxVisible s = true := hshown
    simp [trigger_of_disabled hvisible hdisabled]

/-- A statement that cannot be removed. -/
structure LockedStatement where
  marked : Bool := false
deriving DecidableEq

instance : StatementModel LockedStatement where
  hasBreakpoint := LockedStatement.marked
  addBreakpoint _ := (.ok (), ⟨true⟩)
  removeBreakpoint _ := (.ok (), ⟨false⟩)
  remove statement := (.error ⟨"the statement is locked"⟩, statement)

/-- A navigator that counts how often it showed a source text. -/
structure VisitCounter where
  visits : Nat := 0
deriving DecidableEq

instance : SourceNavigator VisitCounter LockedStatement where
  goToSource counter _ := (.ok (), ⟨counter.visits + 1⟩)

/-- On the first button of the action box the model is asked to remove the statement and
refuses; the second button is disabled, and nobody is asked. -/
theorem click_on_locked_statement :
    let region : RegionKey := .fresh 1
    let s := ({} : Spotlight).run [.register region, .activate region]
    let layout : Layout :=
      { Layout.compute {} ⟨0, 0, 100, 40⟩ ⟨0, 0, 90, 30⟩ false with
        actionBox := ⟨0, 0, 30, 10⟩ }
    let d : Decorator :=
      { region, headingRegion := .fresh 2, disabled := { toggleBreakpoint := true },
        layout? := some layout }
    let c : Collaborators LockedStatement VisitCounter := ⟨{}, {}⟩
    (d.click s ⟨5, 5⟩ c).1 = .error (.model ⟨"the statement is locked"⟩) ∧
      (d.click s ⟨5, 5⟩ c.logged).2.requests = [.remove] ∧
      s.active = some region ∧
      (d.click s ⟨15, 5⟩ c).2 = c ∧ (d.click s ⟨15, 5⟩ c.logged).2.requests = [] := by
  intro region s layout d c
  have hunmarked : ∀ p, ¬ layout.IsMarkedAt p := by
    rintro p ⟨marker, hmarker, -⟩
    cases hmarker
  have hasks : Asks d s layout ⟨5, 5⟩ .delete := by
    refine .button (hunmarked _) (by decide) ?_ (by decide) (by decide)
    exact ⟨_, [], _, rfl, by decide, nofun⟩
  have hnothing : (d.click s ⟨15, 5⟩ c).1 = .ok none := by
    have hmissed : (ActionBox.mk layout.actionBox d.disabled false).hit? .active ⟨15, 5⟩ =
      none := by decide
    rw [click_of_not_asks rfl]
    rintro action (hmarked | ⟨-, hover, hbutton, -, henabled⟩)
    · exact hunmarked _ hmarked
    · cases hmissed.symm.trans ((hit?_eq_some_iff _ _).mpr ⟨rfl, hover, hbutton, henabled⟩)
  obtain ⟨-, -, -, -, -, hall, hholds, -⟩ :=
    click_runs_at_most_one_action {} [.register region, .activate region] d ⟨5, 5⟩ c
  obtain ⟨hran, hsent⟩ := hall layout .delete rfl hasks
  obtain ⟨-, -, -, hmissed, -⟩ :=
    click_runs_at_most_one_action {} [.register region, .activate region] d ⟨15, 5⟩ c
  exact ⟨(hran.error_iff _).mpr rfl, hsent, hholds (by decide), hmissed (Or.inr hnothing)⟩

end Decorator

end NestedHover
