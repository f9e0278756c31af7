import NestedHover.Region.Forest
import Mathlib.Data.List.Nodup

/-!
# Growing and cutting ordered forests

What adding a leaf, pruning a subtree and moving a region do to a forest in which no
key occurs twice, seen through two views: the regions in paint order, and the way
up from each region to its root.

Main results:

- Theorem {lit}`regions_graft`: a grafted leaf is inserted into the paint order and
  nothing else changes there.
- Theorem {lit}`regions_prune`: pruning cuts one contiguous stretch out of the paint
  order, the region and all below it.
- Theorems {lit}`prune_graft_leaf` and {lit}`prune_graft`: pruning undoes the grafting of a
  leaf, and takes what was grafted below a region with it.
- Theorem {lit}`place_eq_map`: moving a region changes that region and no other.
- Theorem {lit}`path?_of_append`: the way up from a region on the way of another one
  is the rest of that way.
- Theorems {lit}`path?_graft_of_ne`, {lit}`path?_prune_of_mem` and
  {lit}`path?_map`: the regions that stay keep their way up.
-/

namespace NestedHover

namespace Forest

/-! ## Forests without repeated keys -/

/-- No key occurs twice in a tree exactly when none does in its parts and the parts
share none. -/
theorem nodup_keys_tree_iff {root : Region} {children siblings : Forest} :
    (tree root children siblings).keys.Nodup ↔
      root.key ∉ children.keys ∧ root.key ∉ siblings.keys ∧ children.keys.Nodup ∧
        siblings.keys.Nodup ∧ ∀ key ∈ children.keys, key ∉ siblings.keys := by
  rw [keys_tree, List.nodup_cons, List.nodup_append', List.mem_append, not_or,
    List.disjoint_left]
  constructor
  · rintro ⟨⟨hc, hs⟩, hcs, hss, hdisjoint⟩
    exact ⟨hc, hs, hcs, hss, fun key => @hdisjoint key⟩
  · rintro ⟨hc, hs, hcs, hss, hdisjoint⟩
    exact ⟨⟨hc, hs⟩, hcs, hss, fun key => hdisjoint key⟩

/-- What occurs in a tree and is neither its root nor below it lies to the right. -/
theorem mem_siblings_of_mem_keys_tree {root : Region} {children siblings : Forest}
    {key : RegionKey} (h : key ∈ (tree root children siblings).keys) (hroot : root.key ≠ key)
    (hchild : key ∉ children.keys) : key ∈ siblings.keys := by
  rw [keys_tree, List.mem_cons, List.mem_append] at h
  rcases h with h | h | h
  · exact absurd h.symm hroot
  · exact absurd h hchild
  · exact h

theorem key_mem_keys {r : Region} {f : Forest} (h : r ∈ f.regions) : r.key ∈ f.keys :=
  List.mem_map_of_mem h

theorem find?_eq_none_iff {key : RegionKey} {f : Forest} :
    f.find? key = none ↔ key ∉ f.keys := by
  rw [← isSome_find?_iff, Option.isSome_iff_ne_none, not_not]

theorem path?_eq_none_iff {key : RegionKey} {f : Forest} :
    f.path? key = none ↔ key ∉ f.keys := by
  rw [← isSome_path?_iff, Option.isSome_iff_ne_none, not_not]

/-! ## Adding a leaf -/

/-- Grafting below a region that does not occur changes nothing. -/
theorem graft_of_not_mem {parent : RegionKey} {f : Forest} (leaf : Region)
    (h : parent ∉ f.keys) : f.graft parent leaf = f := by
  induction f with
  | nil => rfl
  | tree root children siblings ihc ihs =>
      simp only [keys_tree, List.mem_cons, List.mem_append, not_or] at h
      have hroot : ¬ root.key = parent := fun e => h.1 e.symm
      simp [graft, hroot, ihc h.2.1, ihs h.2.2]

/-- A grafted leaf is inserted into the paint order. -/
theorem regions_graft {parent : RegionKey} {f : Forest} (leaf : Region)
    (hnodup : f.keys.Nodup) (h : parent ∈ f.keys) :
    ∃ before after, f.regions = before ++ after ∧
      (f.graft parent leaf).regions = before ++ leaf :: after := by
  induction f with
  | nil => simp at h
  | tree root children siblings ihc ihs =>
      rcases nodup_keys_tree_iff.mp hnodup with ⟨-, -, hcs, hss, hdisjoint⟩
      by_cases hroot : root.key = parent
      · exact ⟨root :: children.regions, siblings.regions, by simp [regions],
          by simp [graft, hroot, regions]⟩
      · by_cases hc : parent ∈ children.keys
        · rcases ihc hcs hc with ⟨before, after, hold, hnew⟩
          have hs := graft_of_not_mem leaf (hdisjoint parent hc)
          exact ⟨root :: before, after ++ siblings.regions, by simp [regions, hold],
            by simp [graft, hroot, regions, hnew, hs]⟩
        · have hs := mem_siblings_of_mem_keys_tree h hroot hc
          rcases ihs hss hs with ⟨before, after, hold, hnew⟩
          have hstay := graft_of_not_mem leaf hc
          exact ⟨root :: (children.regions ++ before), after, by simp [regions, hold],
            by simp [graft, hroot, regions, hnew, hstay]⟩

/-! ## Pruning -/

/-- Pruning a region that does not occur changes nothing. -/
theorem prune_of_not_mem {key : RegionKey} {f : Forest} (h : key ∉ f.keys) :
    f.prune key = f := by
  induction f with
  | nil => rfl
  | tree root children siblings ihc ihs =>
      simp only [keys_tree, List.mem_cons, List.mem_append, not_or] at h
      have hroot : ¬ root.key = key := fun e => h.1 e.symm
      simp [prune, hroot, ihc h.2.1, ihs h.2.2]

/-- Pruning cuts a region with all below it out of the paint order. -/
theorem regions_prune {key : RegionKey} {f below : Forest} {root : Region}
    (hnodup : f.keys.Nodup) (h : f.find? key = some (root, below)) :
    ∃ before after, f.regions = before ++ (root :: below.regions) ++ after ∧
      (f.prune key).regions = before ++ after := by
  induction f with
  | nil => simp [find?] at h
  | tree top children siblings ihc ihs =>
      rcases nodup_keys_tree_iff.mp hnodup with ⟨-, -, hcs, hss, hdisjoint⟩
      by_cases htop : top.key = key
      · simp only [find?, htop, if_true, Option.some.injEq, Prod.mk.injEq] at h
        rcases h with ⟨rfl, rfl⟩
        exact ⟨[], siblings.regions, by simp [regions], by simp [prune, htop]⟩
      · simp only [find?, htop, if_false] at h
        rcases Option.or_eq_some_iff.mp h with hc | ⟨hc, hs⟩
        · rcases ihc hcs hc with ⟨before, after, hold, hnew⟩
          have hmem : key ∈ children.keys := isSome_find?_iff.mp (by simp [hc])
          have hstay := prune_of_not_mem (hdisjoint key hmem)
          exact ⟨top :: before, after ++ siblings.regions, by simp [regions, hold],
            by simp [prune, htop, regions, hnew, hstay]⟩
        · rcases ihs hss hs with ⟨before, after, hold, hnew⟩
          have hstay := prune_of_not_mem (find?_eq_none_iff.mp hc)
          exact ⟨top :: (children.regions ++ before), after, by simp [regions, hold],
            by simp [prune, htop, regions, hnew, hstay]⟩

/-- Pruning adds no key. -/
theorem mem_keys_of_mem_keys_prune {key other : RegionKey} {f : Forest}
    (h : other ∈ (f.prune key).keys) : other ∈ f.keys := by
  induction f with
  | nil => exact h
  | tree root children siblings ihc ihs =>
      by_cases hroot : root.key = key
      · rw [prune, if_pos hroot] at h
        simp [h]
      · rw [prune, if_neg hroot, keys_tree, List.mem_cons, List.mem_append] at h
        rw [keys_tree, List.mem_cons, List.mem_append]
        exact h.imp_right (Or.imp ihc ihs)

/-! ## Moving -/

/-- The forest with every region replaced by its image. -/
def map (g : Region → Region) : Forest → Forest
  | nil => nil
  | tree root children siblings => tree (g root) (children.map g) (siblings.map g)

@[simp] theorem regions_map (g : Region → Region) (f : Forest) :
    (f.map g).regions = f.regions.map g := by
  induction f with
  | nil => rfl
  | tree root children siblings ihc ihs => simp [map, regions, ihc, ihs]

/-- Nothing changes where every region is its own image. -/
theorem map_eq_self {g : Region → Region} {f : Forest}
    (h : ∀ r ∈ f.regions, g r = r) : f.map g = f := by
  induction f with
  | nil => rfl
  | tree root children siblings ihc ihs =>
      simp only [regions, List.mem_cons, List.mem_append] at h
      rw [map, h root (Or.inl rfl), ihc fun r hr => h r (Or.inr (Or.inl hr)),
        ihs fun r hr => h r (Or.inr (Or.inr hr))]

end Forest

/-- A region with new bounds, if it has the given key. -/
def Region.placed (key : RegionKey) (bounds : Rectangle) (r : Region) : Region :=
  if r.key = key then { r with bounds } else r

@[simp] theorem Region.key_placed (key : RegionKey) (bounds : Rectangle) (r : Region) :
    (r.placed key bounds).key = r.key := by
  unfold Region.placed
  split <;> rfl

@[simp] theorem Region.kind_placed (key : RegionKey) (bounds : Rectangle) (r : Region) :
    (r.placed key bounds).kind = r.kind := by
  unfold Region.placed
  split <;> rfl

@[simp] theorem Region.isFocusable_placed (key : RegionKey) (bounds : Rectangle)
    (r : Region) : (r.placed key bounds).isFocusable = r.isFocusable := by
  simp [Region.isFocusable]

namespace Forest

/-- Moving a region changes that region and no other. -/
theorem place_eq_map {key : RegionKey} {f : Forest} (bounds : Rectangle)
    (hnodup : f.keys.Nodup) : f.place key bounds = f.map (Region.placed key bounds) := by
  have hstay : ∀ g : Forest, key ∉ g.keys → g.map (Region.placed key bounds) = g := by
    intro g hg
    apply map_eq_self
    intro r hr
    have hne : ¬ r.key = key := fun e => hg (e ▸ key_mem_keys hr)
    simp [Region.placed, hne]
  induction f with
  | nil => rfl
  | tree root children siblings ihc ihs =>
      rcases nodup_keys_tree_iff.mp hnodup with ⟨hc, hs, hcs, hss, -⟩
      by_cases hroot : root.key = key
      · have hc' : key ∉ children.keys := hroot ▸ hc
        have hs' : key ∉ siblings.keys := hroot ▸ hs
        rw [map, hstay children hc', hstay siblings hs']
        simp [place, Region.placed, hroot]
      · rw [map, ← ihc hcs, ← ihs hss]
        simp [place, Region.placed, hroot]

/-- Moving a region that does not occur changes nothing. -/
theorem place_of_not_mem {key : RegionKey} {f : Forest} (bounds : Rectangle)
    (h : key ∉ f.keys) : f.place key bounds = f := by
  induction f with
  | nil => rfl
  | tree root children siblings ihc ihs =>
      simp only [keys_tree, List.mem_cons, List.mem_append, not_or] at h
      have hroot : ¬ root.key = key := fun e => h.1 e.symm
      simp [place, hroot, ihc h.2.1, ihs h.2.2]

/-! ## Cutting off what was grown -/

/-- Pruning a leaf that was planted gives the forest back. -/
theorem prune_plant {leaf : Region} {f : Forest} (h : leaf.key ∉ f.keys) :
    (f.plant leaf).prune leaf.key = f := by
  induction f with
  | nil => simp [plant, prune]
  | tree root children siblings _ ihs =>
      simp only [keys_tree, List.mem_cons, List.mem_append, not_or] at h
      have hroot : ¬ root.key = leaf.key := fun e => h.1 e.symm
      simp [plant, prune, hroot, prune_of_not_mem h.2.1, ihs h.2.2]

/-- Pruning a leaf that was grafted gives the forest back. -/
theorem prune_graft_leaf {leaf : Region} {f : Forest} (parent : RegionKey)
    (h : leaf.key ∉ f.keys) : (f.graft parent leaf).prune leaf.key = f := by
  induction f with
  | nil => rfl
  | tree root children siblings ihc ihs =>
      simp only [keys_tree, List.mem_cons, List.mem_append, not_or] at h
      have hroot : ¬ root.key = leaf.key := fun e => h.1 e.symm
      unfold graft
      split
      · simp [prune, hroot, prune_plant h.2.1, prune_of_not_mem h.2.2]
      · simp [prune, hroot, ihc h.2.1, ihs h.2.2]

/-- A leaf that was grafted below a region goes with it. -/
theorem prune_graft {parent key : RegionKey} {leaf : Region} {f : Forest}
    (h : parent ∉ (f.prune key).keys) : (f.graft parent leaf).prune key = f.prune key := by
  induction f with
  | nil => rfl
  | tree root children siblings ihc ihs =>
      by_cases hroot : root.key = key
      · rw [prune, if_pos hroot] at h
        unfold graft
        split
        · simp [prune, hroot]
        · simp [prune, hroot, graft_of_not_mem leaf h]
      · simp only [prune, hroot, if_false, keys_tree, List.mem_cons, List.mem_append,
          not_or] at h
        have hparent : ¬ root.key = parent := fun e => h.1 e.symm
        simp [graft, prune, hroot, hparent, ihc h.2.1, ihs h.2.2]

/-- New bounds of a region go with it. -/
theorem prune_place {key moved : RegionKey} {f : Forest} (bounds : Rectangle)
    (h : moved ∉ (f.prune key).keys) : (f.place moved bounds).prune key = f.prune key := by
  induction f with
  | nil => rfl
  | tree root children siblings ihc ihs =>
      by_cases hroot : root.key = key
      · rw [prune, if_pos hroot] at h
        unfold place
        split
        · simp [prune, hroot]
        · simp [prune, hroot, place_of_not_mem bounds h]
      · simp only [prune, hroot, if_false, keys_tree, List.mem_cons, List.mem_append,
          not_or] at h
        have hmoved : ¬ root.key = moved := fun e => h.1 e.symm
        simp [place, prune, hroot, hmoved, ihc h.2.1, ihs h.2.2]

/-! ## The way up -/

/-- The way up of a region starts at the region. -/
theorem head_of_path? {key : RegionKey} {f : Forest} {path : List Region}
    (h : f.path? key = some path) : ∃ r rest, path = r :: rest ∧ r.key = key := by
  induction f generalizing path with
  | nil => simp [path?] at h
  | tree root children siblings ihc ihs =>
      by_cases hroot : root.key = key
      · simp only [path?, hroot, if_true, Option.some.injEq] at h
        exact ⟨root, [], h.symm, hroot⟩
      · simp only [path?, hroot, if_false] at h
        rcases Option.or_eq_some_iff.mp h with hc | ⟨-, hs⟩
        · rcases Option.map_eq_some_iff.mp hc with ⟨inner, hinner, rfl⟩
          rcases ihc hinner with ⟨r, rest, rfl, hr⟩
          exact ⟨r, rest ++ [root], rfl, hr⟩
        · exact ihs hs

/-- The way up leads through regions of the forest. -/
theorem mem_regions_of_mem_path? {key : RegionKey} {f : Forest} {path : List Region}
    (h : f.path? key = some path) {r : Region} (hr : r ∈ path) : r ∈ f.regions := by
  induction f generalizing path with
  | nil => simp [path?] at h
  | tree root children siblings ihc ihs =>
      rw [regions, List.mem_cons, List.mem_append]
      by_cases hroot : root.key = key
      · simp only [path?, hroot, if_true, Option.some.injEq] at h
        subst h
        exact Or.inl (List.mem_singleton.mp hr)
      · simp only [path?, hroot, if_false] at h
        rcases Option.or_eq_some_iff.mp h with hc | ⟨-, hs⟩
        · rcases Option.map_eq_some_iff.mp hc with ⟨inner, hinner, rfl⟩
          rcases List.mem_append.mp hr with hr | hr
          · exact Or.inr (Or.inl (ihc hinner hr))
          · exact Or.inl (List.mem_singleton.mp hr)
        · exact Or.inr (Or.inr (ihs hs hr))

/-- The way up in a tree from a region among the children. -/
theorem path?_tree_of_mem_children {root : Region} {children siblings : Forest}
    {key : RegionKey} (hroot : root.key ≠ key) (h : key ∈ children.keys) :
    (tree root children siblings).path? key = (children.path? key).map (· ++ [root]) := by
  rcases Option.isSome_iff_exists.mp (isSome_path?_iff.mpr h) with ⟨path, hpath⟩
  simp [path?, hroot, hpath]

/-- The way up in a tree from a region among the siblings. -/
theorem path?_tree_of_not_mem_children {root : Region} {children siblings : Forest}
    {key : RegionKey} (hroot : root.key ≠ key) (h : key ∉ children.keys) :
    (tree root children siblings).path? key = siblings.path? key := by
  simp [path?, hroot, path?_eq_none_iff.mpr h]

/-- No key occurs twice on the way up. -/
theorem nodup_path? {key : RegionKey} {f : Forest} {path : List Region}
    (hnodup : f.keys.Nodup) (h : f.path? key = some path) :
    (path.map Region.key).Nodup := by
  induction f generalizing path with
  | nil => simp [path?] at h
  | tree root children siblings ihc ihs =>
      rcases nodup_keys_tree_iff.mp hnodup with ⟨hc, -, hcs, hss, -⟩
      by_cases hroot : root.key = key
      · simp only [path?, hroot, if_true, Option.some.injEq] at h
        simp [← h]
      · simp only [path?, hroot, if_false] at h
        rcases Option.or_eq_some_iff.mp h with hpath | ⟨-, hpath⟩
        · rcases Option.map_eq_some_iff.mp hpath with ⟨inner, hinner, rfl⟩
          rw [List.map_append, List.nodup_append']
          refine ⟨ihc hcs hinner, by simp, ?_⟩
          rw [List.disjoint_left]
          intro k hk hk'
          rcases List.mem_map.mp hk with ⟨r, hr, rfl⟩
          have hkey : r.key = root.key := by simpa using hk'
          exact hc (hkey ▸ key_mem_keys (mem_regions_of_mem_path? hinner hr))
        · exact ihs hss hpath

/-- The way up from a region on the way of another one is the rest of that way. -/
theorem path?_of_append {key : RegionKey} {f : Forest} {before after : List Region}
    {r : Region} (hnodup : f.keys.Nodup)
    (h : f.path? key = some (before ++ r :: after)) :
    f.path? r.key = some (r :: after) := by
  induction f generalizing before after with
  | nil => simp [path?] at h
  | tree root children siblings ihc ihs =>
      rcases nodup_keys_tree_iff.mp hnodup with ⟨hc, hs, hcs, hss, hdisjoint⟩
      by_cases hroot : root.key = key
      · simp only [path?, hroot, if_true, Option.some.injEq] at h
        obtain ⟨rfl, rfl, rfl⟩ : before = [] ∧ root = r ∧ after = [] := by
          cases before with
          | nil => simpa using h
          | cons b rest => simp at h
        simp [path?]
      · simp only [path?, hroot, if_false] at h
        rcases Option.or_eq_some_iff.mp h with hpath | ⟨-, hpath⟩
        · rcases Option.map_eq_some_iff.mp hpath with ⟨inner, hinner, hsplit⟩
          -- the root comes last, so either it is the region or the region lies below it
          rcases List.eq_nil_or_concat after with rfl | ⟨middle, last, rfl⟩
          · have hlast := (List.append_inj' hsplit rfl).2
            obtain rfl : root = r := by simpa using hlast
            simp [path?]
          · have hcut : inner ++ [root] = (before ++ r :: middle) ++ [last] := by
              simpa using hsplit
            rcases List.append_inj' hcut rfl with ⟨rfl, hlast⟩
            obtain rfl : root = last := by simpa using hlast
            have hmem : r.key ∈ children.keys :=
              key_mem_keys (mem_regions_of_mem_path? hinner (by simp))
            have hne : root.key ≠ r.key := fun e => hc (e ▸ hmem)
            rw [path?_tree_of_mem_children hne hmem, ihc hcs hinner]
            simp
        · have hmem : r.key ∈ siblings.keys :=
            key_mem_keys (mem_regions_of_mem_path? hpath (by simp))
          have hne : root.key ≠ r.key := fun e => hs (e ▸ hmem)
          have hchild : r.key ∉ children.keys := fun hr => hdisjoint _ hr hmem
          rw [path?_tree_of_not_mem_children hne hchild]
          exact ihs hss hpath

/-! ## The way up after a change -/

/-- A planted leaf is on nobody's way but its own. -/
theorem path?_plant_of_ne {key : RegionKey} {leaf : Region} (f : Forest)
    (h : key ≠ leaf.key) : (f.plant leaf).path? key = f.path? key := by
  have hleaf : ¬ leaf.key = key := fun e => h e.symm
  induction f with
  | nil => simp [plant, path?, hleaf]
  | tree root children siblings _ ihs => simp [plant, path?, ihs]

/-- A grafted leaf is on nobody's way but its own. -/
theorem path?_graft_of_ne {parent key : RegionKey} {leaf : Region} (f : Forest)
    (h : key ≠ leaf.key) : (f.graft parent leaf).path? key = f.path? key := by
  induction f with
  | nil => rfl
  | tree root children siblings ihc ihs =>
      unfold graft
      split
      · simp [path?, path?_plant_of_ne children h]
      · simp [path?, ihc, ihs]

/-- The regions that pruning leaves keep their way up. -/
theorem path?_prune_of_mem {key other : RegionKey} {f : Forest}
    (hnodup : f.keys.Nodup) (h : other ∈ (f.prune key).keys) :
    (f.prune key).path? other = f.path? other := by
  induction f with
  | nil => rfl
  | tree root children siblings ihc ihs =>
      rcases nodup_keys_tree_iff.mp hnodup with ⟨hc, hs, hcs, hss, hdisjoint⟩
      by_cases hroot : root.key = key
      · rw [prune, if_pos hroot] at h ⊢
        have hne : root.key ≠ other := fun e => hs (e ▸ h)
        have hchild : other ∉ children.keys := fun ho => hdisjoint _ ho h
        rw [path?_tree_of_not_mem_children hne hchild]
      · rw [prune, if_neg hroot] at h ⊢
        by_cases hother : root.key = other
        · simp [path?, hother]
        · by_cases hchild : other ∈ (children.prune key).keys
          · have hold := mem_keys_of_mem_keys_prune hchild
            rw [path?_tree_of_mem_children hother hchild,
              path?_tree_of_mem_children hother hold, ihc hcs hchild]
          · have hsibling := mem_siblings_of_mem_keys_tree h hother hchild
            have hold : other ∉ children.keys := fun ho =>
              hdisjoint _ ho (mem_keys_of_mem_keys_prune hsibling)
            rw [path?_tree_of_not_mem_children hother hchild,
              path?_tree_of_not_mem_children hother hold, ihs hss hsibling]

/-- Replacing regions by others with the same keys replaces them on the way up. -/
theorem path?_map {g : Region → Region} (hkey : ∀ r, (g r).key = r.key)
    (key : RegionKey) (f : Forest) :
    (f.map g).path? key = (f.path? key).map (List.map g) := by
  induction f with
  | nil => rfl
  | tree root children siblings ihc ihs =>
      by_cases hroot : root.key = key
      · simp [map, path?, hkey, hroot]
      · cases hpath : children.path? key <;>
          simp [map, path?, hkey, hroot, ihc, ihs, hpath]

/-! ## Hit regions -/

/-- What a point hits is a region of the forest. -/
theorem mem_regions_of_topmost? {p : Point} {f : Forest} {r : Region}
    (h : f.topmost? p = some r) : r ∈ f.regions := by
  induction f with
  | nil => simp [topmost?] at h
  | tree root children siblings ihc ihs =>
      rw [regions, List.mem_cons, List.mem_append]
      rcases Option.or_eq_some_iff.mp h with hs | ⟨-, hrest⟩
      · exact Or.inr (Or.inr (ihs hs))
      · rcases Option.or_eq_some_iff.mp hrest with hc | ⟨-, hroot⟩
        · exact Or.inr (Or.inl (ihc hc))
        · split at hroot
          · exact Or.inl (Option.some.inj hroot).symm
          · cases hroot

end Forest

end NestedHover
