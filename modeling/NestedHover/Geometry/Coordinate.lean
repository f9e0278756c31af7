/-!
# Coordinates

Positions and lengths on the drawing surface are single-precision numbers.
Sums, differences, products and quotients are rounded once each, so this
library never reassociates them.  What is fixed here is how a number that is
not a number behaves when two coordinates are compared for the smaller or the
larger one: it gives way to the other.

Main results:

- Theorems {lit}`least_of_isNaN_left` and {lit}`greatest_of_isNaN_left`: an
  undefined left coordinate gives way to the right one.
- Theorems {lit}`least_of_isNaN_right` and {lit}`greatest_of_isNaN_right`: so
  does an undefined right coordinate, when the left one is defined.
-/

namespace NestedHover

/-- A position or a length on the drawing surface, in user-space units with
the origin at the top left and vertical positions growing downward. -/
abbrev Coordinate := Float32

namespace Coordinate

/-- The smaller of two coordinates; an undefined one gives way to the other. -/
def least (a b : Coordinate) : Coordinate :=
  if a.isNaN then b
  else if b.isNaN then a
  else if b < a then b
  else a

/-- The larger of two coordinates; an undefined one gives way to the other. -/
def greatest (a b : Coordinate) : Coordinate :=
  if a.isNaN then b
  else if b.isNaN then a
  else if a < b then b
  else a

theorem least_of_isNaN_left {a : Coordinate} (h : a.isNaN = true)
    (b : Coordinate) : a.least b = b := by
  unfold least
  exact if_pos h

theorem least_of_isNaN_right {a b : Coordinate} (ha : a.isNaN = false)
    (hb : b.isNaN = true) : a.least b = a := by
  unfold least
  rw [if_neg (by rw [ha]; decide), if_pos hb]

theorem greatest_of_isNaN_left {a : Coordinate} (h : a.isNaN = true)
    (b : Coordinate) : a.greatest b = b := by
  unfold greatest
  exact if_pos h

theorem greatest_of_isNaN_right {a b : Coordinate} (ha : a.isNaN = false)
    (hb : b.isNaN = true) : a.greatest b = a := by
  unfold greatest
  rw [if_neg (by rw [ha]; decide), if_pos hb]

end Coordinate

end NestedHover
