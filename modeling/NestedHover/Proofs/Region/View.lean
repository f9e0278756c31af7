import NestedHover.Region.Diagram

/-!
# Arrangements of regions

What can be asked about the regions of a diagram, apart from how they are stored: the
roots, and for each key its parent, its children, its kind, its bounds and the keys above
it.  An arrangement is well-formed when these answers fit together.  Going from parent to
parent then leads from every live region up to a root, through no region twice, and going
down the lists of siblings from the roots leads to every live region once.

Main definitions:

- Definitions {lit}`View.Climb` and {lit}`View.Tour`: the walk from parent to parent, and
  the walk through lists of siblings that goes below each before it goes to the next.
- Definition {lit}`View.WellFormed`: the answers fit together.
- Definition {lit}`View.Chronological`: the lists of siblings are in the order of a log.
- Definition {lit}`View.Cut`: one arrangement is another one without a subtree.

Main results:

- Theorems {lit}`View.Climb.eq` and {lit}`View.Tour.eq`: there is one walk at most.
-/

namespace NestedHover

/-- Everything that can be asked about the regions of a diagram. -/
structure View where
  size : Nat
  isEmpty : Bool
  roots : List RegionKey
  contains : RegionKey → Bool
  parent? : RegionKey → Option RegionKey
  children : RegionKey → List RegionKey
  kind? : RegionKey → Option RegionKind
  bounds? : RegionKey → Option Rectangle
  /-- A live region and those above it, from the inside out. -/
  ancestors : RegionKey → List RegionKey
  owner? : RegionKey → Option RegionKey
  isWithin : RegionKey → RegionKey → Bool
  isNested : RegionKey → RegionKey → Bool
  hit? : Point → Option RegionKey

namespace View

variable {v : View} {key : RegionKey} {way visited : List RegionKey}

/-! ## Walks along the links -/

/-- The walk from a region to its parent, from there to the parent of that, and on until
there is none. -/
inductive Climb (v : View) : RegionKey → List RegionKey → Prop where
  | top {key : RegionKey} (hnone : v.parent? key = none) : Climb v key [key]
  | up {key parent : RegionKey} {way : List RegionKey} (hparent : v.parent? key = some parent)
      (hway : Climb v parent way) : Climb v key (key :: way)

/-- The walk through a list of siblings that goes below each before it goes to the
next. -/
inductive Tour (v : View) : List RegionKey → List RegionKey → Prop where
  | done : Tour v [] []
  | visit {key : RegionKey} {siblings below right : List RegionKey}
      (hbelow : Tour v (v.children key) below) (hright : Tour v siblings right) :
      Tour v (key :: siblings) (key :: (below ++ right))

/-- There is one walk up at most. -/
theorem Climb.eq (h : v.Climb key way) {other : List RegionKey} (hother : v.Climb key other) :
    other = way := by
  induction h generalizing other with
  | top hnone =>
      cases hother with
      | top _ => rfl
      | up hparent _ => simp [hnone] at hparent
  | up hparent _ ih =>
      cases hother with
      | top hnone => simp [hnone] at hparent
      | up hparent' hway' =>
          obtain rfl := Option.some.inj (hparent.symm.trans hparent')
          rw [ih hway']

/-- There is one walk down at most. -/
theorem Tour.eq {siblings : List RegionKey} (h : v.Tour siblings visited)
    {other : List RegionKey} (hother : v.Tour siblings other) : other = visited := by
  induction h generalizing other with
  | done => cases hother; rfl
  | visit _ _ ihbelow ihright =>
      cases hother with
      | visit hbelow' hright' => rw [ihbelow hbelow', ihright hright']

/-! ## Well-formedness -/

/-- The answers about the links fit together. -/
structure WellFormed (v : View) : Prop where
  /-- Only live regions are roots. -/
  live_root : ∀ key ∈ v.roots, v.contains key = true
  /-- Only live regions are children. -/
  live_child : ∀ parent, ∀ key ∈ v.children parent, v.contains key = true
  /-- Only live regions are parents. -/
  live_parent : ∀ key parent, v.parent? key = some parent → v.contains parent = true
  /-- A region without a parent stands once among the roots, any other one not at all. -/
  count_roots : ∀ key, v.contains key = true →
    v.roots.count key = if v.parent? key = none then 1 else 0
  /-- A region stands once among the children of its parent and nowhere else. -/
  count_children : ∀ key, v.contains key = true → ∀ parent,
    (v.children parent).count key = if v.parent? key = some parent then 1 else 0
  /-- Following the parents from a live region is the way up. -/
  climb : ∀ key, v.contains key = true → ∀ way, v.Climb key way ↔ way = v.ancestors key
  /-- The way up visits no region twice. -/
  climb_nodup : ∀ key, (v.ancestors key).Nodup
  /-- The way up is no longer than there are regions. -/
  climb_length : ∀ key, (v.ancestors key).length ≤ v.size
  /-- The way up ends at a root. -/
  climb_root : ∀ key, v.contains key = true →
    ∃ root ∈ v.roots, (v.ancestors key).getLast? = some root
  /-- Following the lists of siblings from the roots visits the live regions, each once. -/
  tour : ∃ painted, (∀ visited, v.Tour v.roots visited ↔ visited = painted) ∧
    painted.Nodup ∧ (∀ key, key ∈ painted ↔ v.contains key = true) ∧ painted.length = v.size

/-- A log lists each live region once, and every list of siblings is in its order. -/
structure Chronological (v : View) (log : List RegionKey) : Prop where
  nodup : log.Nodup
  mem_iff : ∀ key, key ∈ log ↔ v.contains key = true
  roots : v.roots.Sublist log
  children : ∀ parent, (v.children parent).Sublist log

/-! ## What removing leaves -/

/-- What removing a live region takes, in which order it is reported, and what is left. -/
structure Cut (v : View) (key : RegionKey) (removed : List RegionKey) (next : View) :
    Prop where
  /-- The regions within the removed one are taken, and no others. -/
  mem_iff : ∀ other, other ∈ removed ↔ v.isWithin other key = true
  /-- Each is reported once. -/
  nodup : removed.Nodup
  /-- They are reported in the order of the walk down from the removed region. -/
  tour : v.Tour [key] removed
  /-- The removed region comes first. -/
  head_eq : removed.head? = some key
  /-- Each comes before those within it. -/
  pairwise : removed.Pairwise fun earlier later => v.isWithin earlier later = false
  /-- None of them is live any more. -/
  dead : ∀ other ∈ removed, next.contains other = false
  /-- As many regions are gone as are reported. -/
  size_eq : next.size + removed.length = v.size
  /-- All others are live if they were. -/
  live : ∀ other, v.isWithin other key = false → next.contains other = v.contains other
  /-- They keep their parents. -/
  parent_eq : ∀ other, v.isWithin other key = false → next.parent? other = v.parent? other
  /-- They keep their kinds. -/
  kind_eq : ∀ other, v.isWithin other key = false → next.kind? other = v.kind? other
  /-- They keep their bounds. -/
  bounds_eq : ∀ other, v.isWithin other key = false → next.bounds? other = v.bounds? other
  /-- They keep their children, but the parent of the removed region loses that one. -/
  children_eq : ∀ other, v.isWithin other key = false →
    next.children other =
      if v.parent? key = some other then (v.children other).erase key
      else v.children other
  /-- The roots stay, but for the removed region. -/
  roots_eq : next.roots = if v.parent? key = none then v.roots.erase key else v.roots

end View

namespace Diagram

/-- The arrangement of the regions of a diagram. -/
abbrev view (d : Diagram) : View where
  size := d.size
  isEmpty := d.isEmpty
  roots := d.roots
  contains := d.contains
  parent? := d.parent?
  children := d.children
  kind? := d.kind?
  bounds? := d.bounds?
  ancestors key := (d.ancestors key).map Region.key
  owner? := d.owner?
  isWithin := d.isWithin
  isNested := d.isNested
  hit? := d.hit?

/-- The walk down the lists of siblings of a diagram. -/
abbrev Tour (d : Diagram) : List RegionKey → List RegionKey → Prop := d.view.Tour

end Diagram

end NestedHover
