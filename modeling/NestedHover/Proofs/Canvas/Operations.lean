import NestedHover.Proofs.Canvas.Events
import NestedHover.Statement.Decorator

/-!
# Operations on a canvas

Everything that a driver does to a canvas: it adds regions and registers the focusable
ones, mounts, arranges and unmounts decorators, moves and removes regions, lets the
pointer forget a region, changes the settings, and passes events on.  Mounting a
decorator is adding two regions, arranging one is moving two, and unmounting one is
removing its region; so what is done to a decorator need not be spoken of again.

Main results:

- Theorem {lit}`mount?_eq_insert`: mounting a decorator adds a focusable region and a
  decoration inside.
- Theorems {lit}`arrange_eq_place` and {lit}`unmount_eq_discard`: arranging a decorator
  moves its two regions, and unmounting it removes them.
-/

namespace NestedHover

namespace Spotlight

/-! ## Enrolling a region -/

variable {s : Spotlight} {key other owner : RegionKey} {kind : RegionKind}

/-- Registers a region if it is focusable. -/
def enroll (s : Spotlight) (key : RegionKey) (kind : RegionKind) : Spotlight :=
  if kind = .focusable then s.register key else s

theorem isRegistered_of_enroll (h : (s.enroll key kind).isRegistered other = true) :
    other = key ∨ s.isRegistered other = true := by
  unfold enroll at h
  split at h
  · exact isRegistered_of_register h
  · exact Or.inr h

theorem isRegistered_enroll_of_index_ne (hindex : other.index ≠ key.index) :
    (s.enroll key kind).isRegistered other = s.isRegistered other := by
  unfold enroll
  split
  · exact isRegistered_register_of_index_ne s hindex
  · rfl

theorem Settled.enroll (h : Settled s owner) (key : RegionKey) (kind : RegionKind) :
    Settled (s.enroll key kind) owner := by
  unfold Spotlight.enroll
  split
  · exact h.register key
  · exact h

end Spotlight

namespace Canvas

variable {c : Canvas}

/-! ## Changes to the regions -/

/-- Adds a region and registers it if it is focusable; adding below a region that is not
live changes nothing. -/
def insert (c : Canvas) (parent : Option RegionKey) (kind : RegionKind)
    (bounds : Rectangle) : Canvas :=
  match c.diagram.insert? parent kind bounds with
  | some (key, diagram) =>
      { c with diagram, spotlight := c.spotlight.enroll key kind }
  | none => c

/-- A refused addition changes nothing. -/
theorem insert_of_eq_none {parent : Option RegionKey} {kind : RegionKind}
    {bounds : Rectangle} (h : (c.diagram.insert? parent kind bounds).isSome = false) :
    c.insert parent kind bounds = c := by
  rw [Option.isSome_eq_false_iff, Option.isNone_iff_eq_none] at h
  simp [Canvas.insert, h]

/-- Gives a region new bounds. -/
def place (c : Canvas) (key : RegionKey) (bounds : Rectangle) : Canvas :=
  { c with diagram := (c.diagram.setBounds key bounds).2 }

/-- Removes a region with all below it and deregisters what was removed. -/
def discard (c : Canvas) (key : RegionKey) : Canvas :=
  { c with
    diagram := (c.diagram.remove key).2
    spotlight := (c.diagram.remove key).1.foldl Spotlight.deregister c.spotlight }

/-- The canvas with other settings. -/
def configure (c : Canvas) (settings : Settings) : Canvas :=
  { c with spotlight := c.spotlight.configure settings }

/-- Unmounting a decorator removes its region. -/
theorem unmount_eq_discard (decorator : Decorator) (c : Canvas) :
    (decorator.unmount c).2 = c.discard decorator.region := rfl

/-- Arranging a decorator gives new bounds to its two regions. -/
theorem arrange_eq_place (decorator : Decorator) (c : Canvas) (box statement : Rectangle)
    (hasBreakpoint : Bool) :
    ∃ bounds heading, (decorator.arrange c box statement hasBreakpoint).2 =
      (c.place decorator.region bounds).place decorator.headingRegion heading :=
  ⟨_, _, rfl⟩

section Mounting

variable {next : Canvas} {parent : Option RegionKey} {dimensions : Dimensions}
  {decorator : Decorator}

/-- Mounting a decorator adds its region and its heading below that. -/
theorem mount?_cases (h : Decorator.mount? c parent dimensions = some (decorator, next)) :
    ∃ middle, c.diagram.insert? parent .focusable .unplaced = some (decorator.region, middle) ∧
      middle.insert? (some decorator.region) .decoration .unplaced =
        some (decorator.headingRegion, next.diagram) := by
  unfold Decorator.mount? at h
  split at h
  · cases h
  · rename_i region middle hfirst
    split at h
    · cases h
    · rename_i headingRegion diagram hsecond
      cases h
      exact ⟨middle, hfirst, hsecond⟩

/-- A mounted decorator was registered after its regions had been added. -/
theorem eq_of_mount? (h : Decorator.mount? c parent dimensions = some (decorator, next)) :
    next = { c with
      diagram := next.diagram
      spotlight := c.spotlight.register decorator.region } := by
  unfold Decorator.mount? at h
  split at h
  · cases h
  · split at h <;> cases h
    rfl

/-- Mounting a decorator adds a focusable region and a decoration inside. -/
theorem mount?_eq_insert
    (h : Decorator.mount? c parent dimensions = some (decorator, next)) :
    ∃ middle : Canvas,
      (c.diagram.insert? parent .focusable .unplaced).isSome = true ∧
        middle = c.insert parent .focusable .unplaced ∧
        (middle.diagram.insert? (some decorator.region) .decoration .unplaced).isSome =
          true ∧
        next = middle.insert (some decorator.region) .decoration .unplaced := by
  rcases mount?_cases h with ⟨middle, hfirst, hsecond⟩
  refine ⟨_, ?_, rfl, ?_, ?_⟩
  · simp [hfirst]
  · simp [insert, hfirst, hsecond]
  · rw [eq_of_mount? h]
    simp [insert, hfirst, hsecond, Spotlight.enroll]

end Mounting

/-! ## Runs of operations -/

/-- A call of the driver of a canvas. -/
inductive Operation where
  | insert (parent : Option RegionKey) (kind : RegionKind) (bounds : Rectangle)
  | mount (parent : Option RegionKey) (dimensions : Dimensions)
  | place (key : RegionKey) (bounds : Rectangle)
  | arrange (decorator : Decorator) (box statement : Rectangle) (hasBreakpoint : Bool)
  | discard (key : RegionKey)
  | unmount (decorator : Decorator)
  | forget (key : RegionKey)
  | configure (settings : Settings)
  | event (event : Event)
deriving DecidableEq

/-- Carries out one call, and answers whether it fails to arm a change.  Calls that are
refused change nothing. -/
def perform (c : Canvas) : Operation → Except ClockError Unit × Canvas
  | .insert parent kind bounds => (.ok (), c.insert parent kind bounds)
  | .mount parent dimensions =>
      (.ok (), ((Decorator.mount? c parent dimensions).map Prod.snd).getD c)
  | .place key bounds => (.ok (), c.place key bounds)
  | .arrange decorator box statement hasBreakpoint =>
      (.ok (), (decorator.arrange c box statement hasBreakpoint).2)
  | .discard key => (.ok (), c.discard key)
  | .unmount decorator => (.ok (), (decorator.unmount c).2)
  | .forget key => (.ok (), c.forget key)
  | .configure settings => (.ok (), c.configure settings)
  | .event event => c.react event

/-- The canvas after one call. -/
def step (c : Canvas) (operation : Operation) : Canvas := (c.perform operation).2

/-- The canvas after a sequence of calls. -/
def run (c : Canvas) (operations : List Operation) : Canvas := operations.foldl step c

/-- A call that does not fail. -/
def Works (c : Canvas) (operation : Operation) : Prop :=
  (c.perform operation).1.isOk = true

instance (c : Canvas) (operation : Operation) : Decidable (c.Works operation) :=
  inferInstanceAs (Decidable (_ = _))

/-- How many regions a call adds. -/
def added (c : Canvas) : Operation → Nat
  | .insert parent kind bounds =>
      if (c.diagram.insert? parent kind bounds).isSome then 1 else 0
  | .mount parent dimensions =>
      if (Decorator.mount? c parent dimensions).isSome then 2 else 0
  | _ => 0

/-- How many regions are added in a sequence of calls, whether or not they stay. -/
def insertions : Canvas → List Operation → Nat
  | _, [] => 0
  | c, operation :: rest => c.added operation + insertions (c.step operation) rest

end Canvas

end NestedHover
