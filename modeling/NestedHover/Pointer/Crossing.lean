import NestedHover.Region.Key

/-!
# Boundary crossings of the pointer

The pointer rests on at most one region.  When it comes to rest on another one it
leaves the old region first and enters the new one then, and either crossing
names the region on its other side.

Main results:

- Theorem {lit}`Pointer.moveTo_hovered`: resting where it rested crosses nothing.
- Theorem {lit}`Pointer.hovered_moveTo`: after a move the pointer rests on what it
  moved to.
-/

namespace NestedHover

/-- The direction of a crossing. -/
inductive CrossingKind where
  /-- The pointer comes onto the target. -/
  | enter
  /-- The pointer goes off the target. -/
  | leave
deriving DecidableEq, Repr

/-- A crossing of the boundary of the target, with the region on the other
side. -/
structure Crossing where
  kind : CrossingKind
  target : Option RegionKey
  related : Option RegionKey
deriving DecidableEq, Repr

namespace Crossing

/-- The pointer comes onto the target from the related region. -/
def enter (target : RegionKey) (related : Option RegionKey) : Crossing :=
  ⟨.enter, some target, related⟩

/-- The pointer goes off the target to the related region. -/
def leave (target : RegionKey) (related : Option RegionKey) : Crossing :=
  ⟨.leave, some target, related⟩

/-- Whether the pointer comes onto the target. -/
def isEntry (c : Crossing) : Bool := c.kind = .enter

end Crossing

/-- The region that the pointer rests on. -/
structure Pointer where
  hovered : Option RegionKey := none
deriving DecidableEq, Repr

namespace Pointer

/-- Moves the pointer to a region or off all regions, and answers the crossings
in order. -/
def moveTo (p : Pointer) (hit : Option RegionKey) : List Crossing × Pointer :=
  if hit = p.hovered then ([], p)
  else
    let left := p.hovered.toList.map fun old => Crossing.leave old hit
    let entered := hit.toList.map fun new => Crossing.enter new p.hovered
    (left ++ entered, ⟨hit⟩)

/-- Moves the pointer off all regions. -/
def leave (p : Pointer) : List Crossing × Pointer := p.moveTo none

/-- Forgets that the pointer rests on a region, without a crossing. -/
def forget (p : Pointer) (region : RegionKey) : Pointer :=
  ⟨p.hovered.filter fun hovered => hovered ≠ region⟩

theorem moveTo_hovered (p : Pointer) : p.moveTo p.hovered = ([], p) := by
  simp [moveTo]

@[simp] theorem hovered_moveTo (p : Pointer) (hit : Option RegionKey) :
    (p.moveTo hit).2.hovered = hit := by
  unfold moveTo
  split
  · rename_i h
    exact h.symm
  · rfl

end Pointer

end NestedHover
