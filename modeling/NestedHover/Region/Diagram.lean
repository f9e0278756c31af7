import NestedHover.Region.Forest

/-!
# Diagrams

A diagram is the forest of the live regions with the pool that their keys come
from.  Adding a region below one that is not live fails and changes nothing.
Removing a region removes all below it and hands their keys back in paint order,
so the slot of the region painted last is the first to be used again.

The regions at or above a region, the nearest focusable one among them, and
containment are all read off the way up to the root.  How regions are stored, node by
node with links both ways, is said by arenas, which answer as diagrams do.

Main results:

- Theorem {lit}`Diagram.insert?_eq_none_iff`: adding fails exactly below a region
  that is not live.
- Theorem {lit}`Diagram.contains_eq_true_iff`: a key is live exactly when it
  occurs in the forest.
- Theorem {lit}`Diagram.remove_of_not_mem`: removing what is not live removes
  nothing.
- Theorem {lit}`Diagram.isNested_eq`: the walk up that looks for nesting finds the
  container and a focusable region in front of it.
-/

namespace NestedHover

/-- Walks along the regions up to the container and answers whether a focusable one has been
met before it; without the container the answer is no. -/
def Region.metBefore (container : RegionKey) : Bool → List Region → Bool
  | _, [] => false
  | met, r :: rest =>
      if r.key = container then met
      else metBefore container (met || r.isFocusable) rest

/-- The walk looks for the container, and for a focusable region in front of it. -/
theorem Region.metBefore_eq (container : RegionKey) (met : Bool) (way : List Region) :
    metBefore container met way =
      ((way.any fun r => r.key = container) &&
        (met || (way.takeWhile fun r => r.key ≠ container).any Region.isFocusable)) := by
  -- what has been met so far grows along the walk
  induction way generalizing met with
  | nil => simp [metBefore]
  | cons r rest ih =>
      by_cases hkey : r.key = container
      · simp [metBefore, hkey]
      · rw [metBefore, if_neg hkey, ih]
        simp [hkey, Bool.or_assoc]

/-- The live regions and the supply of keys. -/
structure Diagram where
  forest : Forest := .nil
  pool : KeyPool := {}
deriving DecidableEq, Repr

namespace Diagram

/-! ## Queries -/

/-- How many regions are live. -/
def size (d : Diagram) : Nat := d.forest.regions.length

/-- Whether no region is live. -/
def isEmpty (d : Diagram) : Bool := d.forest.regions.isEmpty

/-- The keys of the roots, from left to right. -/
def roots (d : Diagram) : List RegionKey := d.forest.roots.map Region.key

/-- The live region with the given key. -/
def region? (d : Diagram) (key : RegionKey) : Option Region :=
  (d.forest.find? key).map Prod.fst

/-- Whether a key names a live region. -/
def contains (d : Diagram) (key : RegionKey) : Bool := (d.region? key).isSome

/-- The kind of a live region. -/
def kind? (d : Diagram) (key : RegionKey) : Option RegionKind :=
  (d.region? key).map Region.kind

/-- The rectangle that a live region covers. -/
def bounds? (d : Diagram) (key : RegionKey) : Option Rectangle :=
  (d.region? key).map Region.bounds

/-- The keys of the children of a region, from left to right. -/
def children (d : Diagram) (key : RegionKey) : List RegionKey :=
  match d.forest.find? key with
  | some (_, below) => below.roots.map Region.key
  | none => []

/-- A live region and the regions above it, from the inside out. -/
def ancestors (d : Diagram) (key : RegionKey) : List Region :=
  (d.forest.path? key).getD []

/-- The parent of a region that is not a root. -/
def parent? (d : Diagram) (key : RegionKey) : Option RegionKey :=
  (d.ancestors key)[1]?.map Region.key

/-- The nearest focusable region at or above a region. -/
def owner? (d : Diagram) (key : RegionKey) : Option RegionKey :=
  ((d.ancestors key).find? Region.isFocusable).map Region.key

/-- Whether a region is the given one or lies below it. -/
def isWithin (d : Diagram) (key container : RegionKey) : Bool :=
  (d.ancestors key).any fun r => r.key = container

/-- Whether a region lies below the given one with a focusable region in
between, itself included. -/
def isNested (d : Diagram) (key container : RegionKey) : Bool :=
  Region.metBefore container false (d.ancestors key)

/-- The region painted last among those that cover a point. -/
def hit? (d : Diagram) (p : Point) : Option RegionKey :=
  (d.forest.topmost? p).map Region.key

/-! ## Changes -/

/-- Adds a region as the last root or the last child of a live region; answers
its key and the new diagram. -/
def insert? (d : Diagram) (parent : Option RegionKey) (kind : RegionKind)
    (bounds : Rectangle) : Option (RegionKey × Diagram) :=
  let leaf : Region := ⟨d.pool.next, kind, bounds⟩
  match parent with
  | none => some (leaf.key, ⟨d.forest.plant leaf, d.pool.advance⟩)
  | some parent =>
      if d.contains parent then
        some (leaf.key, ⟨d.forest.graft parent leaf, d.pool.advance⟩)
      else none

/-- Removes a region with all below it; answers their keys in paint order. -/
def remove (d : Diagram) (key : RegionKey) : List RegionKey × Diagram :=
  match d.forest.find? key with
  | some (root, below) =>
      let removed := root.key :: below.keys
      (removed, ⟨d.forest.prune key, d.pool.giveBack removed⟩)
  | none => ([], d)

/-- Gives a live region new bounds; answers whether the key is live, and nothing
happens to any other one. -/
def setBounds (d : Diagram) (key : RegionKey) (bounds : Rectangle) : Bool × Diagram :=
  (d.contains key, { d with forest := d.forest.place key bounds })

/-! ## Laws -/

theorem contains_eq_true_iff {d : Diagram} {key : RegionKey} :
    d.contains key = true ↔ key ∈ d.forest.keys := by
  rw [← Forest.isSome_find?_iff]
  simp [contains, region?]

theorem contains_eq_false_iff {d : Diagram} {key : RegionKey} :
    d.contains key = false ↔ key ∉ d.forest.keys := by
  rw [← contains_eq_true_iff, Bool.not_eq_true]

theorem insert?_eq_none_iff {d : Diagram} {parent : Option RegionKey}
    {kind : RegionKind} {bounds : Rectangle} :
    d.insert? parent kind bounds = none ↔
      ∃ key, parent = some key ∧ d.contains key = false := by
  cases parent with
  | none => simp [insert?]
  | some key => simp [insert?]

theorem remove_of_not_mem {d : Diagram} {key : RegionKey}
    (h : d.contains key = false) : d.remove key = ([], d) := by
  have hfind : d.forest.find? key = none := by
    simpa [contains, region?] using h
  simp [remove, hfind]

@[simp] theorem contains_setBounds (d : Diagram) (key other : RegionKey)
    (bounds : Rectangle) :
    (d.setBounds key bounds).2.contains other = d.contains other := by
  rw [Bool.eq_iff_iff, contains_eq_true_iff, contains_eq_true_iff]
  simp [setBounds]

/-- A region is nested below those that it lies within with a focusable region in front of
them. -/
theorem isNested_eq (d : Diagram) (key container : RegionKey) :
    d.isNested key container = (d.isWithin key container &&
      ((d.ancestors key).takeWhile fun r => r.key ≠ container).any Region.isFocusable) := by
  rw [isNested, Region.metBefore_eq, Bool.false_or, isWithin]

end Diagram

end NestedHover
