import NestedHover.Geometry.Rectangle

/-!
# The breakpoint marker

A statement with a breakpoint shows a square of fixed size on the right edge of
its decorator, level with the top of the statement.

Main results:

- Theorem {lit}`BreakpointMarker.width_bounds_place`: every marker has the fixed
  size.
-/

namespace NestedHover

/-- A drawn breakpoint marker. -/
structure BreakpointMarker where
  bounds : Rectangle
deriving DecidableEq, Repr

namespace BreakpointMarker

/-- The side of the marker. -/
def side : Coordinate := 14

/-- The marker of a decorator and the statement in it. -/
def place (decorator statement : Rectangle) : BreakpointMarker :=
  ⟨.squareAround ⟨decorator.right, statement.y⟩ side⟩

/-- Whether a point lies on the marker. -/
def contains (m : BreakpointMarker) (p : Point) : Bool := m.bounds.contains p

@[simp] theorem width_bounds_place (decorator statement : Rectangle) :
    (place decorator statement).bounds.width = side := rfl

end BreakpointMarker

end NestedHover
