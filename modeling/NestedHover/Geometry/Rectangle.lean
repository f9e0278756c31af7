import NestedHover.Geometry.Coordinate

/-!
# Points, insets and rectangles

A rectangle is kept as its top left corner with a width and a height, any of
which may be negative, infinite or undefined: nothing is normalised.  A
rectangle holds its left and top edges and lacks its right and bottom ones, so
that columns cut from one rectangle do not overlap.

Main results:

- Theorem {lit}`Rectangle.contains_eq_true_iff`: containment is the four
  comparisons, each of which an undefined coordinate fails.
- Theorem {lit}`Rectangle.length_columns`: cutting into columns gives as many
  rectangles as were asked for.
-/

namespace NestedHover

/-- A position on the drawing surface. -/
structure Point where
  x : Coordinate
  y : Coordinate
deriving DecidableEq, Repr

/-- Distances kept free along the four sides of a rectangle. -/
structure Insets where
  top : Coordinate
  right : Coordinate
  bottom : Coordinate
  left : Coordinate
deriving DecidableEq, Repr

/-- The same distance along every side. -/
def Insets.uniform (distance : Coordinate) : Insets :=
  ⟨distance, distance, distance, distance⟩

/-- An axis-parallel rectangle, by its top left corner and its extent. -/
structure Rectangle where
  x : Coordinate
  y : Coordinate
  width : Coordinate
  height : Coordinate
deriving DecidableEq, Repr

namespace Rectangle

/-- The rectangle without extent at the origin, held by a shape that has not
been placed yet. -/
def unplaced : Rectangle := ⟨0, 0, 0, 0⟩

/-! ## Construction -/

/-- The rectangle whose top edge has its middle at the anchor. -/
def centeredBelow (anchor : Point) (width height : Coordinate) : Rectangle :=
  ⟨anchor.x - width / 2, anchor.y, width, height⟩

/-- The square of the given side around a centre. -/
def squareAround (center : Point) (side : Coordinate) : Rectangle :=
  let half := side / 2
  ⟨center.x - half, center.y - half, side, side⟩

/-! ## Measures -/

/-- The position of the right edge. -/
def right (r : Rectangle) : Coordinate := r.x + r.width

/-- The position of the bottom edge. -/
def bottom (r : Rectangle) : Coordinate := r.y + r.height

/-- The middle of the rectangle. -/
def center (r : Rectangle) : Point :=
  ⟨r.x + r.width / 2, r.y + r.height / 2⟩

/-- The product of the two extents. -/
def area (r : Rectangle) : Coordinate := r.width * r.height

/-- Whether an extent is zero or less; an undefined extent is not. -/
def isEmpty (r : Rectangle) : Bool := r.width ≤ 0 || r.height ≤ 0

/-- Whether a point lies on the rectangle: the left and top edges belong to
it, the right and bottom edges do not. -/
def contains (r : Rectangle) (p : Point) : Bool :=
  r.x ≤ p.x && p.x < r.right && r.y ≤ p.y && p.y < r.bottom

theorem contains_eq_true_iff {r : Rectangle} {p : Point} :
    r.contains p = true ↔
      r.x ≤ p.x ∧ p.x < r.right ∧ r.y ≤ p.y ∧ p.y < r.bottom := by
  simp [contains, and_assoc]

/-! ## Combination -/

/-- The rectangle inside the given insets, with no extent below zero. -/
def inner (r : Rectangle) (insets : Insets) : Rectangle where
  x := r.x + insets.left
  y := r.y + insets.top
  width := (r.width - insets.left - insets.right).greatest 0
  height := (r.height - insets.top - insets.bottom).greatest 0

/-- The rectangle between the outermost edges of two rectangles. -/
def union (r s : Rectangle) : Rectangle :=
  let x := r.x.least s.x
  let y := r.y.least s.y
  let right := r.right.greatest s.right
  let bottom := r.bottom.greatest s.bottom
  ⟨x, y, right - x, bottom - y⟩

/-- The rectangle between the innermost edges of two rectangles, if both of
its extents are positive. -/
def intersection? (r s : Rectangle) : Option Rectangle :=
  let x := r.x.greatest s.x
  let y := r.y.greatest s.y
  let right := r.right.least s.right
  let bottom := r.bottom.least s.bottom
  if x < right ∧ y < bottom then some ⟨x, y, right - x, bottom - y⟩ else none

/-- The rectangle cut into columns of one width, from left to right. -/
def columns (r : Rectangle) (parts : Nat) : List Rectangle :=
  let step := r.width / Float32.ofNat parts
  (List.range parts).map fun i => ⟨r.x + step * Float32.ofNat i, r.y, step, r.height⟩

@[simp] theorem length_columns (r : Rectangle) (parts : Nat) :
    (r.columns parts).length = parts := by
  simp [columns]

end Rectangle

end NestedHover
