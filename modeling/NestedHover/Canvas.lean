import NestedHover.Pointer.Routing

/-!
# The canvas

A canvas is a diagram on the screen: its regions, the spotlight on one of them,
and the pointer that moves over it.  The three meet where the pointer moves: what
it comes to rest on is read off the diagram, and the boundaries that it crosses
are dispatched to the spotlight in order.

When a dispatched request fails the pointer has moved all the same, and the rest
of the crossings are lost.

Main results:

- Theorem {lit}`Canvas.hovered_movePointer`: after a move the pointer rests on
  what is painted topmost at its position.
- Theorem {lit}`Canvas.diagram_movePointer`: a move changes no region.
-/

namespace NestedHover

/-- A diagram on the screen with its spotlight and its pointer. -/
structure Canvas where
  diagram : Diagram := {}
  spotlight : Spotlight := {}
  pointer : Pointer := {}
deriving DecidableEq

namespace Canvas

/-- Moves the pointer to a position, or off the canvas, and answers the decisions
on the boundaries that it crosses. -/
def movePointer (c : Canvas) (position : Option Point) (now : Instant) :
    Except ClockError (List Decision) × Canvas :=
  let moved := c.pointer.moveTo (position.bind c.diagram.hit?)
  let outcome := c.spotlight.dispatchAll c.diagram now moved.1
  (outcome.1, { c with spotlight := outcome.2, pointer := moved.2 })

/-- Forgets that the pointer rests on a region. -/
def forget (c : Canvas) (region : RegionKey) : Canvas :=
  { c with pointer := c.pointer.forget region }

@[simp] theorem diagram_movePointer (c : Canvas) (position : Option Point)
    (now : Instant) : (c.movePointer position now).2.diagram = c.diagram := rfl

@[simp] theorem hovered_movePointer (c : Canvas) (position : Option Point)
    (now : Instant) :
    (c.movePointer position now).2.pointer.hovered =
      position.bind c.diagram.hit? := by
  simp [movePointer]

end Canvas

end NestedHover
