import NestedHover.Statement.BreakpointMarker
import NestedHover.Statement.Dimensions

/-!
# The layout of a decorator

A decorator draws a heading on the left edge of its box, an outline from the
heading around the right and the bottom, a zone below the heading where statements
are dropped, a box for the condition, an action box that hangs under the heading,
and a marker if the statement has a breakpoint.

The pointer is over the decorator wherever it is over one of these parts, so the
rectangle that reacts to it reaches around all of them.

Main definitions:

- Definition {lit}`Layout.compute`: where the parts of a decorator are drawn.
- Definition {lit}`Layout.hoverBounds`: where the decorator reacts to the pointer.
-/

namespace NestedHover

/-- Where the parts of a decorator are drawn. -/
structure Layout where
  heading : Rectangle
  titleAnchor : Point
  /-- The corners of the outline, in the order in which it is drawn. -/
  outline : List Point
  dropZone : Rectangle
  conditionBox : Rectangle
  actionBox : Rectangle
  marker : Option BreakpointMarker
  /-- Whether the program is halted at the statement. -/
  debugHit : Bool := false
deriving DecidableEq, Repr

namespace Layout

/-- The layout of a decorator with the given box around the given statement. -/
def compute (dimensions : Dimensions) (box statement : Rectangle)
    (hasBreakpoint : Bool) : Layout :=
  let width := dimensions.headingWidth
  let height := dimensions.headingHeight
  let corner : Point := ⟨box.x - dimensions.paddingLeft, box.y + dimensions.paddingTop⟩
  let headingLeft : Point := ⟨box.x - width / 2, corner.y + height / 2⟩
  let headingRight : Point := ⟨box.x + width / 2, headingLeft.y⟩
  let topRight : Point :=
    ⟨corner.x + dimensions.paddingLeft + statement.width, headingLeft.y⟩
  let bottomRight : Point := ⟨topRight.x, box.bottom⟩
  let bottomLeft : Point := ⟨box.x, bottomRight.y⟩
  let hook : Point := ⟨box.x, headingLeft.y + height / 2⟩
  let dropCorner : Point := ⟨corner.x, corner.y + height / 2⟩
  { heading := ⟨headingLeft.x, corner.y, width, height⟩
    titleAnchor := ⟨hook.x, headingLeft.y⟩
    outline := [headingRight, topRight, bottomRight, bottomLeft]
    dropZone := ⟨dropCorner.x, dropCorner.y, statement.width, statement.height⟩
    conditionBox :=
      ⟨headingLeft.x, headingLeft.y - dimensions.statementHeight / 2, statement.width,
        dimensions.statementHeight⟩
    actionBox :=
      .centeredBelow hook (3 * dimensions.actionBoxWidth / 4) dimensions.actionBoxHeight
    marker := if hasBreakpoint then some (.place box statement) else none }

/-- The rectangle in which the decorator with the given box reacts to the
pointer. -/
def hoverBounds (l : Layout) (box : Rectangle) : Rectangle :=
  let parts := ((box.union l.heading).union l.dropZone).union l.actionBox
  match l.marker with
  | some marker => parts.union marker.bounds
  | none => parts

end Layout

end NestedHover
