import NestedHover.Canvas
import NestedHover.Statement.ActionBox
import NestedHover.Statement.Layout

/-!
# Decorators of compound statements

A decorator is a mounted pair of regions, a focusable one for the whole of it and
a decoration inside for its heading, with what it shows.  Where its parts are is
known only after it has been laid out; laying it out also gives both regions their
bounds.

Main results:

- Theorem {lit}`Decorator.mount?_eq_none_iff`: mounting fails exactly below a
  region that is not live.
- Theorem {lit}`Decorator.debugHit_layout?_setDebugHit` and
  {lit}`Decorator.debugHit_arrange`: the layout shows the halt mark that was set
  last, whether it was set before or after laying out.
-/

namespace NestedHover

/-- How an expression editor treats what it edits. -/
structure EditorOptions where
  propertyType : String := ""
  key : String := ""
deriving DecidableEq, Repr

/-- A parameter that can be edited in place. -/
structure ParameterEditor where
  value : String := ""
  options : EditorOptions := {}
deriving DecidableEq, Repr

/-- A request to open an editor over part of a decorator. -/
structure EditorRequest where
  anchor : Rectangle
  value : String
  options : EditorOptions
deriving DecidableEq, Repr

/-- A mounted decorator of a compound statement. -/
structure Decorator where
  region : RegionKey
  headingRegion : RegionKey
  title : String := "finally"
  dimensions : Dimensions := {}
  /-- The actions that are refused. -/
  disabled : ActionSet := {}
  expression : Option String := none
  editorOptions : Option EditorOptions := none
  parameterEditor : Option ParameterEditor := none
  /-- Whether the program is halted at the statement. -/
  debugHit : Bool := false
  /-- The layout, once the decorator has been laid out. -/
  layout? : Option Layout := none
deriving DecidableEq, Repr

namespace Decorator

/-! ## Mounting -/

/-- Mounts a decorator as the last root or the last child of a live region, and
registers it. -/
def mount? (c : Canvas) (parent : Option RegionKey) (dimensions : Dimensions) :
    Option (Decorator × Canvas) :=
  match c.diagram.insert? parent .focusable .unplaced with
  | none => none
  | some (region, withRegion) =>
      match withRegion.insert? (some region) .decoration .unplaced with
      | none => none
      | some (headingRegion, diagram) =>
          some ({ region, headingRegion, dimensions },
            { c with diagram, spotlight := c.spotlight.register region })

/-- Removes the region of a decorator with all below it, and deregisters what was
removed; answers the removed keys. -/
def unmount (d : Decorator) (c : Canvas) : List RegionKey × Canvas :=
  let (removed, diagram) := c.diagram.remove d.region
  (removed, { c with diagram, spotlight := removed.foldl Spotlight.deregister c.spotlight })

/-! ## Laying out -/

/-- Sets whether the program is halted at the statement. -/
def setDebugHit (d : Decorator) (debugHit : Bool) : Decorator :=
  { d with debugHit, layout? := d.layout?.map fun layout => { layout with debugHit } }

/-- Lays the decorator out and gives its regions their bounds. -/
def arrange (d : Decorator) (c : Canvas) (box statement : Rectangle)
    (hasBreakpoint : Bool) : Decorator × Canvas :=
  let layout :=
    { Layout.compute d.dimensions box statement hasBreakpoint with
      debugHit := d.debugHit }
  let (_, placed) := c.diagram.setBounds d.region (layout.hoverBounds box)
  let (_, diagram) := placed.setBounds d.headingRegion layout.heading
  ({ d with layout? := some layout }, { c with diagram })

/-! ## What is shown -/

/-- The highlight of the decorator. -/
def highlight (d : Decorator) (s : Spotlight) : Highlight := s.highlight d.region

/-- Whether the action box is visible. -/
def isActionBoxVisible (d : Decorator) (s : Spotlight) : Bool :=
  ActionBox.isVisible (d.highlight s)

/-- The action box, once the decorator has been laid out. -/
def actionBox? (d : Decorator) (hasBreakpoint : Bool) : Option ActionBox :=
  d.layout?.map fun layout => ⟨layout.actionBox, d.disabled, hasBreakpoint⟩

/-! ## Editors -/

/-- The request to edit a value over the condition box.  An empty value counts as
none, and nothing can be edited before the decorator has been laid out. -/
def editorRequest? (d : Decorator) (value : Option String)
    (options : Option EditorOptions) : Option EditorRequest :=
  match value.filter (· ≠ ""), options, d.layout? with
  | some value, some options, some layout => some ⟨layout.conditionBox, value, options⟩
  | _, _, _ => none

/-- The request to edit the expression of the statement. -/
def expressionRequest? (d : Decorator) : Option EditorRequest :=
  d.editorRequest? d.expression d.editorOptions

/-- The request to edit the parameter of the statement. -/
def parameterRequest? (d : Decorator) : Option EditorRequest :=
  d.editorRequest? (d.parameterEditor.map ParameterEditor.value)
    (d.parameterEditor.map ParameterEditor.options)

/-! ## Laws -/

/-- A region that was just added is live. -/
theorem contains_of_insert?_eq_some {d next : Diagram} {parent : Option RegionKey}
    {kind : RegionKind} {bounds : Rectangle} {key : RegionKey}
    (h : d.insert? parent kind bounds = some (key, next)) :
    next.contains key = true := by
  rw [Diagram.contains_eq_true_iff]
  cases parent with
  | none =>
      simp only [Diagram.insert?, Option.some.injEq, Prod.mk.injEq] at h
      obtain ⟨rfl, rfl⟩ := h
      simp
  | some parent =>
      simp only [Diagram.insert?] at h
      split at h
      · rename_i hlive
        simp only [Option.some.injEq, Prod.mk.injEq] at h
        obtain ⟨rfl, rfl⟩ := h
        rw [Diagram.contains_eq_true_iff] at hlive
        exact (Forest.mem_keys_graft_iff hlive).mpr (Or.inl rfl)
      · cases h

/-- Mounting fails exactly below a region that is not live. -/
theorem mount?_eq_none_iff {c : Canvas} {parent : Option RegionKey}
    {dimensions : Dimensions} :
    mount? c parent dimensions = none ↔
      ∃ key, parent = some key ∧ c.diagram.contains key = false := by
  rw [← @Diagram.insert?_eq_none_iff c.diagram parent .focusable .unplaced]
  unfold mount?
  split
  · rename_i h
    simp [h]
  · rename_i region withRegion h
    have hlive := contains_of_insert?_eq_some h
    have hsecond : withRegion.insert? (some region) .decoration .unplaced ≠ none := by
      simp [Diagram.insert?, hlive]
    split
    · rename_i hnone
      exact absurd hnone hsecond
    · simp [h]

@[simp] theorem debugHit_layout?_setDebugHit (d : Decorator) (debugHit : Bool)
    (layout : Layout) (h : (d.setDebugHit debugHit).layout? = some layout) :
    layout.debugHit = debugHit := by
  simp only [setDebugHit, Option.map_eq_some_iff] at h
  obtain ⟨_, _, rfl⟩ := h
  rfl

theorem debugHit_arrange (d : Decorator) (c : Canvas) (box statement : Rectangle)
    (hasBreakpoint : Bool) (layout : Layout)
    (h : (d.arrange c box statement hasBreakpoint).1.layout? = some layout) :
    layout.debugHit = d.debugHit := by
  simp only [arrange, Option.some.injEq] at h
  subst h
  rfl

end Decorator

end NestedHover
