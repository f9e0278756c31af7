import NestedHover.Geometry.Rectangle
import NestedHover.Region.Key

/-!
# Ordered forests of regions

The shapes of a diagram form an ordered forest: the children of a shape, and the
roots, stand in the order in which they were added.  A forest is empty, or it is
a region with its children, followed by the trees to its right.  Listing each
region before its children, and those from left to right, gives the order in
which shapes are painted.

Main results:

- Theorem {lit}`Forest.isSome_find?_iff`: a region is found exactly when its key
  occurs in the forest.
- Theorems {lit}`Forest.regions_plant` and {lit}`Forest.mem_keys_graft_iff`: what
  adding a leaf does to the regions of the forest.
- Theorem {lit}`Forest.keys_place`: placing a region anew changes no key.
- Theorem {lit}`Forest.isSome_path?_iff`: exactly the regions of the forest have
  a path to a root.
-/

namespace NestedHover

/-- Whether a region can hold the highlight or only belongs to one that can. -/
inductive RegionKind where
  | focusable
  | decoration
deriving DecidableEq, Repr

/-- A hoverable shape: its key, its kind, and the rectangle that it covers. -/
structure Region where
  key : RegionKey
  kind : RegionKind
  bounds : Rectangle
deriving DecidableEq, Repr

/-- Whether a region can hold the highlight. -/
def Region.isFocusable (r : Region) : Bool := r.kind = .focusable

/-- An ordered forest of regions. -/
inductive Forest where
  /-- No tree at all. -/
  | nil
  /-- A first tree, by its root and the forest of its children, and the trees
  to the right of it. -/
  | tree (root : Region) (children siblings : Forest)
deriving DecidableEq, Repr

namespace Forest

/-! ## Listing -/

/-- The regions in paint order: each before its children, from left to right. -/
def regions : Forest → List Region
  | nil => []
  | tree root children siblings => root :: (children.regions ++ siblings.regions)

/-- The keys in paint order. -/
def keys (f : Forest) : List RegionKey := f.regions.map Region.key

/-- The roots from left to right. -/
def roots : Forest → List Region
  | nil => []
  | tree root _ siblings => root :: siblings.roots

@[simp] theorem keys_nil : nil.keys = [] := rfl

@[simp] theorem keys_tree (root : Region) (children siblings : Forest) :
    (tree root children siblings).keys =
      root.key :: (children.keys ++ siblings.keys) := by
  simp [keys, regions]

/-! ## Looking up -/

/-- The region with the given key, and the forest of its children. -/
def find? (key : RegionKey) : Forest → Option (Region × Forest)
  | nil => none
  | tree root children siblings =>
      if root.key = key then some (root, children)
      else (children.find? key).or (siblings.find? key)

/-- The way up from the region with the given key to its root, both included. -/
def path? (key : RegionKey) : Forest → Option (List Region)
  | nil => none
  | tree root children siblings =>
      if root.key = key then some [root]
      else ((children.path? key).map (· ++ [root])).or (siblings.path? key)

/-- The region painted last among those that cover a point. -/
def topmost? (p : Point) : Forest → Option Region
  | nil => none
  | tree root children siblings =>
      (siblings.topmost? p).or
        ((children.topmost? p).or (if root.bounds.contains p then some root else none))

/-- A region is found exactly when its key occurs in the forest. -/
theorem isSome_find?_iff {key : RegionKey} {f : Forest} :
    (f.find? key).isSome = true ↔ key ∈ f.keys := by
  induction f with
  | nil => simp [find?]
  | tree root children siblings ihc ihs =>
      by_cases h : root.key = key
      · simp [find?, h]
      · have h' : ¬ key = root.key := fun e => h e.symm
        simp [find?, h, h', ihc, ihs]

/-- What is found has the key that was looked for. -/
theorem key_of_find?_eq_some {key : RegionKey} {f children : Forest} {r : Region}
    (h : f.find? key = some (r, children)) : r.key = key := by
  induction f with
  | nil => simp [find?] at h
  | tree root cs siblings ihc ihs =>
      simp only [find?] at h
      split at h
      · rename_i hroot
        cases h
        exact hroot
      · rcases Option.or_eq_some_iff.mp h with h | ⟨_, h⟩
        · exact ihc h
        · exact ihs h

/-- Exactly the regions of the forest have a path to a root. -/
theorem isSome_path?_iff {key : RegionKey} {f : Forest} :
    (f.path? key).isSome = true ↔ key ∈ f.keys := by
  induction f with
  | nil => simp [path?]
  | tree root children siblings ihc ihs =>
      by_cases h : root.key = key
      · simp [path?, h]
      · have h' : ¬ key = root.key := fun e => h e.symm
        simp [path?, h, h', ihc, ihs]

/-! ## Growing and cutting -/

/-- The forest with a leaf added as its last tree. -/
def plant (leaf : Region) : Forest → Forest
  | nil => tree leaf nil nil
  | tree root children siblings => tree root children (siblings.plant leaf)

/-- The forest with a leaf added as the last child of the region with the given
key. -/
def graft (parent : RegionKey) (leaf : Region) : Forest → Forest
  | nil => nil
  | tree root children siblings =>
      if root.key = parent then tree root (children.plant leaf) siblings
      else tree root (children.graft parent leaf) (siblings.graft parent leaf)

/-- The forest without the region with the given key and all below it. -/
def prune (key : RegionKey) : Forest → Forest
  | nil => nil
  | tree root children siblings =>
      if root.key = key then siblings
      else tree root (children.prune key) (siblings.prune key)

/-- The forest with new bounds for the region with the given key. -/
def place (key : RegionKey) (bounds : Rectangle) : Forest → Forest
  | nil => nil
  | tree root children siblings =>
      if root.key = key then tree { root with bounds } children siblings
      else tree root (children.place key bounds) (siblings.place key bounds)

/-- A planted leaf comes last in paint order. -/
@[simp] theorem regions_plant (leaf : Region) (f : Forest) :
    (f.plant leaf).regions = f.regions ++ [leaf] := by
  induction f with
  | nil => rfl
  | tree root children siblings _ ihs => simp [plant, regions, ihs]

@[simp] theorem keys_plant (leaf : Region) (f : Forest) :
    (f.plant leaf).keys = f.keys ++ [leaf.key] := by
  simp [keys]

/-- A leaf grafted below a region of the forest adds its key and no other. -/
theorem mem_keys_graft_iff {parent key : RegionKey} {leaf : Region} {f : Forest}
    (h : parent ∈ f.keys) :
    key ∈ (f.graft parent leaf).keys ↔ key = leaf.key ∨ key ∈ f.keys := by
  have stays : ∀ g : Forest, parent ∉ g.keys → g.graft parent leaf = g := by
    intro g
    induction g with
    | nil => intro _; rfl
    | tree root children siblings ihc ihs =>
        intro hg
        simp only [keys_tree, List.mem_cons, List.mem_append, not_or] at hg
        have hroot : ¬ root.key = parent := fun e => hg.1 e.symm
        simp [graft, hroot, ihc hg.2.1, ihs hg.2.2]
  induction f with
  | nil => simp at h
  | tree root children siblings ihc ihs =>
      by_cases hroot : root.key = parent
      · simp only [graft, hroot, if_true, keys_tree, keys_plant, List.mem_cons,
          List.mem_append, List.not_mem_nil, or_false]
        grind
      · have hparent : parent ∈ children.keys ∨ parent ∈ siblings.keys := by
          simp only [keys_tree, List.mem_cons, List.mem_append] at h
          rcases h with h | h
          · exact absurd h.symm hroot
          · exact h
        by_cases hc : parent ∈ children.keys <;> by_cases hs : parent ∈ siblings.keys
        · simp only [graft, hroot, if_false, keys_tree, List.mem_cons,
            List.mem_append, ihc hc, ihs hs]
          grind
        · simp only [graft, hroot, if_false, keys_tree, List.mem_cons,
            List.mem_append, ihc hc, stays _ hs]
          grind
        · simp only [graft, hroot, if_false, keys_tree, List.mem_cons,
            List.mem_append, stays _ hc, ihs hs]
          grind
        · exact absurd hparent (by simp [hc, hs])

/-- Placing a region anew changes no key. -/
@[simp] theorem keys_place (key : RegionKey) (bounds : Rectangle) (f : Forest) :
    (f.place key bounds).keys = f.keys := by
  induction f with
  | nil => rfl
  | tree root children siblings ihc ihs =>
      unfold place
      split <;> simp [ihc, ihs]

end Forest

end NestedHover
