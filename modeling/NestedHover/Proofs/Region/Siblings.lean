import NestedHover.Proofs.Region.Links

/-!
# Lists of siblings

The roots, and the children of each region, are kept as lists.  A change to a diagram
touches them in one way each: an added region comes last among its siblings, a removed
one leaves the list it was in, and moving a region changes no list.

Main results:

- Theorems {lit}`Diagram.roots_insert?` and {lit}`Diagram.children_insert?`: an added
  region comes last among its siblings, and no other list changes.
- Theorems {lit}`Diagram.roots_remove` and {lit}`Diagram.children_remove`: a removed
  region leaves the list of its siblings, and the lists below it are gone.
- Theorems {lit}`Diagram.roots_setBounds` and {lit}`Diagram.children_setBounds`: moving
  a region changes no list.
-/

namespace NestedHover

namespace Forest

variable {f : Forest} {key parent other : RegionKey} {leaf : Region}

/-! ## Lists of siblings in a forest -/

/-- The keys of the roots. -/
def rootKeys (f : Forest) : List RegionKey := f.roots.map Region.key

/-- The keys of the children of a region that occurs in the forest. -/
def childKeys? (key : RegionKey) (f : Forest) : Option (List RegionKey) :=
  (f.find? key).map fun found => found.2.rootKeys

@[simp] theorem rootKeys_nil : nil.rootKeys = [] := rfl

@[simp] theorem rootKeys_tree (root : Region) (children siblings : Forest) :
    (tree root children siblings).rootKeys = root.key :: siblings.rootKeys := rfl

@[simp] theorem childKeys?_nil (key : RegionKey) : nil.childKeys? key = none := rfl

theorem childKeys?_root (root : Region) (children siblings : Forest) :
    (tree root children siblings).childKeys? root.key = some children.rootKeys := by
  simp [childKeys?, find?]

theorem childKeys?_tree_of_ne {root : Region} (children siblings : Forest)
    (hroot : root.key ≠ key) :
    (tree root children siblings).childKeys? key =
      (children.childKeys? key).or (siblings.childKeys? key) := by
  simp only [childKeys?, find?, hroot, if_false]
  cases children.find? key <;> rfl

theorem childKeys?_eq_none_iff : f.childKeys? key = none ↔ key ∉ f.keys := by
  rw [childKeys?, Option.map_eq_none_iff, find?_eq_none_iff]

theorem mem_keys_of_childKeys? {kids : List RegionKey} (h : f.childKeys? parent = some kids)
    (hkey : key ∈ kids) : key ∈ f.keys := by
  rcases Option.map_eq_some_iff.mp h with ⟨⟨r, below⟩, hfind, rfl⟩
  exact ((roots_sublist_regions_of_find? hfind).map Region.key).mem hkey

/-! ## Adding a leaf -/

@[simp] theorem rootKeys_plant (leaf : Region) (f : Forest) :
    (f.plant leaf).rootKeys = f.rootKeys ++ [leaf.key] := by
  induction f with
  | nil => rfl
  | tree root children siblings _ ihs => simp [plant, ihs]

@[simp] theorem rootKeys_graft (parent : RegionKey) (leaf : Region) (f : Forest) :
    (f.graft parent leaf).rootKeys = f.rootKeys := by
  induction f with
  | nil => rfl
  | tree root children siblings _ ihs =>
      unfold graft
      split <;> simp [ihs]

/-- A planted leaf has no children and changes nobody else's. -/
theorem childKeys?_plant (f : Forest) :
    (f.plant leaf).childKeys? key =
      (f.childKeys? key).or (if leaf.key = key then some [] else none) := by
  induction f with
  | nil =>
      by_cases h : leaf.key = key
      · subst h
        simp [plant, childKeys?_root]
      · simp [plant, childKeys?_tree_of_ne, h]
  | tree root children siblings _ ihs =>
      by_cases hroot : root.key = key
      · subst hroot
        simp [plant, childKeys?_root]
      · simp [plant, childKeys?_tree_of_ne _ _ hroot, ihs, Option.or_assoc]

/-- A grafted leaf comes last among the children of its parent. -/
theorem childKeys?_graft_of_ne (f : Forest) (h : key ≠ leaf.key) :
    (f.graft parent leaf).childKeys? key =
      (f.childKeys? key).map fun kids => if key = parent then kids ++ [leaf.key] else kids := by
  have hleaf : ¬ leaf.key = key := fun e => h e.symm
  induction f with
  | nil => rfl
  | tree root children siblings ihc ihs =>
      by_cases hparent : root.key = parent <;> by_cases hroot : root.key = key
      · subst hparent hroot
        simp [graft, childKeys?_root]
      · have hkey : ¬ key = parent := fun e => hroot (hparent.trans e.symm)
        simp [graft, hparent, childKeys?_tree_of_ne _ _ hroot, childKeys?_plant, hleaf, hkey]
      · subst hroot
        simp [graft, hparent, childKeys?_root]
      · simp only [graft, hparent, if_false, childKeys?_tree_of_ne _ _ hroot, ihc, ihs]
        cases children.childKeys? key <;> simp

/-- A grafted leaf has no children. -/
theorem childKeys?_graft_leaf (leaf : Region) (hparent : parent ∈ f.keys)
    (hnew : leaf.key ∉ f.keys) :
    (f.graft parent leaf).childKeys? leaf.key = some [] := by
  induction f with
  | nil => simp at hparent
  | tree root children siblings ihc ihs =>
      simp only [keys_tree, List.mem_cons, List.mem_append, not_or] at hnew
      rcases hnew with ⟨hroot, hc, hs⟩
      have hroot' : root.key ≠ leaf.key := fun e => hroot e.symm
      by_cases htop : root.key = parent
      · simp [graft, htop, childKeys?_tree_of_ne _ _ hroot', childKeys?_plant,
          childKeys?_eq_none_iff.mpr hc]
      · rw [graft, if_neg htop, childKeys?_tree_of_ne _ _ hroot']
        by_cases hchild : parent ∈ children.keys
        · rw [ihc hchild hc, Option.some_or]
        · rw [graft_of_not_mem leaf hchild, childKeys?_eq_none_iff.mpr hc, Option.none_or]
          exact ihs (mem_siblings_of_mem_keys_tree hparent htop hchild) hs

/-! ## Pruning -/

/-- A pruned root leaves the roots. -/
theorem rootKeys_prune (key : RegionKey) (f : Forest) :
    (f.prune key).rootKeys = f.rootKeys.erase key := by
  induction f with
  | nil => rfl
  | tree root children siblings _ ihs =>
      by_cases hroot : root.key = key
      · simp [prune, hroot]
      · simp [prune, hroot, ihs]

/-- A pruned region leaves the children of its parent. -/
theorem childKeys?_prune_of_mem (hnodup : f.keys.Nodup) (h : other ∈ (f.prune key).keys) :
    (f.prune key).childKeys? other = (f.childKeys? other).map (List.erase · key) := by
  induction f with
  | nil => rfl
  | tree root children siblings ihc ihs =>
      rcases nodup_keys_tree_iff.mp hnodup with ⟨hc, hs, hcs, hss, hdisjoint⟩
      by_cases hroot : root.key = key
      · -- what stays lies to the right, where the pruned region is nobody's child
        rw [prune, if_pos hroot] at h ⊢
        have hne : root.key ≠ other := fun e => hs (e ▸ h)
        have hchild : other ∉ children.keys := fun ho => hdisjoint _ ho h
        rw [childKeys?_tree_of_ne _ _ hne, childKeys?_eq_none_iff.mpr hchild, Option.none_or]
        cases hkids : siblings.childKeys? other with
        | none => rfl
        | some kids =>
            have hnot : key ∉ kids := fun hk =>
              hs (hroot ▸ mem_keys_of_childKeys? hkids hk)
            rw [Option.map_some, List.erase_of_not_mem hnot]
      · rw [prune, if_neg hroot] at h ⊢
        by_cases hother : root.key = other
        · subst hother
          rw [childKeys?_root, childKeys?_root, rootKeys_prune, Option.map_some]
        · rw [childKeys?_tree_of_ne _ _ hother, childKeys?_tree_of_ne _ _ hother]
          by_cases hchild : other ∈ (children.prune key).keys
          · have hold := hdisjoint other (mem_keys_of_mem_keys_prune hchild)
            have hnew : other ∉ (siblings.prune key).keys := fun hk =>
              hold (mem_keys_of_mem_keys_prune hk)
            rw [ihc hcs hchild, childKeys?_eq_none_iff.mpr hold,
              childKeys?_eq_none_iff.mpr hnew, Option.or_none, Option.or_none]
          · have hsibling := mem_siblings_of_mem_keys_tree h hother hchild
            have hold : other ∉ children.keys := fun ho =>
              hdisjoint _ ho (mem_keys_of_mem_keys_prune hsibling)
            rw [ihs hss hsibling, childKeys?_eq_none_iff.mpr hchild,
              childKeys?_eq_none_iff.mpr hold, Option.none_or, Option.none_or]

/-! ## Moving -/

/-- Replacing regions by others with the same keys changes no list of siblings. -/
theorem rootKeys_map {g : Region → Region} (hkey : ∀ r, (g r).key = r.key) (f : Forest) :
    (f.map g).rootKeys = f.rootKeys := by
  induction f with
  | nil => rfl
  | tree root children siblings _ ihs => simp [map, hkey, ihs]

theorem childKeys?_map {g : Region → Region} (hkey : ∀ r, (g r).key = r.key)
    (key : RegionKey) (f : Forest) : (f.map g).childKeys? key = f.childKeys? key := by
  induction f with
  | nil => rfl
  | tree root children siblings ihc ihs =>
      by_cases hroot : root.key = key
      · subst hroot
        rw [childKeys?_root, ← rootKeys_map hkey children, ← hkey root, map, childKeys?_root]
      · have hroot' : (g root).key ≠ key := by rwa [hkey]
        rw [map, childKeys?_tree_of_ne _ _ hroot, childKeys?_tree_of_ne _ _ hroot', ihc, ihs]

end Forest

namespace Diagram

variable {d next : Diagram} {key other : RegionKey}

/-! ## Lists of siblings in a diagram -/

theorem roots_eq_rootKeys (d : Diagram) : d.roots = d.forest.rootKeys := rfl

theorem children_eq_childKeys? (d : Diagram) (key : RegionKey) :
    d.children key = (d.forest.childKeys? key).getD [] := by
  unfold children Forest.childKeys?
  cases d.forest.find? key <;> rfl

theorem children_of_not_mem (h : key ∉ d.forest.keys) : d.children key = [] := by
  rw [children_eq_childKeys?, Forest.childKeys?_eq_none_iff.mpr h, Option.getD_none]

/-! ## Adding a region -/

/-- An added root comes last among the roots. -/
theorem roots_insert? {parent : Option RegionKey} {kind : RegionKind} {bounds : Rectangle}
    (h : d.insert? parent kind bounds = some (key, next)) :
    next.roots = if parent = none then d.roots ++ [key] else d.roots := by
  cases parent with
  | none =>
      simp only [insert?, Option.some.injEq, Prod.mk.injEq] at h
      rcases h with ⟨rfl, rfl⟩
      simp [roots_eq_rootKeys]
  | some parent =>
      simp only [insert?] at h
      split at h
      · simp only [Option.some.injEq, Prod.mk.injEq] at h
        rcases h with ⟨rfl, rfl⟩
        simp [roots_eq_rootKeys]
      · cases h

/-- An added region comes last among the children of its parent and has no children. -/
theorem children_insert? (hsound : d.Sound) {parent : Option RegionKey}
    {kind : RegionKind} {bounds : Rectangle}
    (h : d.insert? parent kind bounds = some (key, next)) (other : RegionKey) :
    next.children other =
      if parent = some other then d.children other ++ [key] else d.children other := by
  have hnew := not_mem_keys_of_insert? hsound h
  simp only [children_eq_childKeys?]
  cases parent with
  | none =>
      simp only [insert?, Option.some.injEq, Prod.mk.injEq] at h
      rcases h with ⟨rfl, rfl⟩
      rw [Forest.childKeys?_plant]
      cases d.forest.childKeys? other with
      | none => split <;> rfl
      | some kids => rfl
  | some parent =>
      simp only [insert?] at h
      split at h
      · rename_i hlive
        have hparent := contains_eq_true_iff.mp hlive
        simp only [Option.some.injEq, Prod.mk.injEq] at h
        rcases h with ⟨rfl, rfl⟩
        by_cases hother : other = d.pool.next
        · -- the new region was not live before, so it is not its own parent
          subst hother
          have hne : parent ≠ d.pool.next := fun e => hnew (e ▸ hparent)
          have hleaf := Forest.childKeys?_graft_leaf ⟨d.pool.next, kind, bounds⟩ hparent hnew
          simp [hleaf, Forest.childKeys?_eq_none_iff.mpr hnew, hne]
        · rw [Forest.childKeys?_graft_of_ne _ hother]
          cases hkids : d.forest.childKeys? other with
          | none =>
              have hne : parent ≠ other := fun e =>
                Forest.childKeys?_eq_none_iff.mp hkids (e ▸ hparent)
              simp [hne]
          | some kids => simp [eq_comm]
      · cases h

/-! ## Removing regions -/

/-- Removing prunes the forest, if there is anything to remove. -/
theorem forest_remove (d : Diagram) (key : RegionKey) :
    (d.remove key).2.forest = d.forest.prune key := by
  cases hfind : d.forest.find? key with
  | none =>
      have hnot := Forest.find?_eq_none_iff.mp hfind
      simp [remove, hfind, Forest.prune_of_not_mem hnot]
  | some found => simp [remove, hfind]

/-- A removed region leaves the roots. -/
theorem roots_remove (d : Diagram) (key : RegionKey) :
    (d.remove key).2.roots = d.roots.erase key := by
  rw [roots_eq_rootKeys, forest_remove, Forest.rootKeys_prune, roots_eq_rootKeys]

/-- A removed region leaves the children of its parent, and nothing is left below those
that are removed. -/
theorem children_remove (hsound : d.Sound) (key other : RegionKey) :
    (d.remove key).2.children other =
      if other ∈ (d.remove key).1 then [] else (d.children other).erase key := by
  by_cases hstays : other ∈ (d.remove key).2.forest.keys
  · rw [if_neg ((mem_keys_remove_iff hsound).mp hstays).2]
    rw [forest_remove] at hstays
    rw [children_eq_childKeys?, children_eq_childKeys?, forest_remove,
      Forest.childKeys?_prune_of_mem hsound.nodup_keys hstays]
    cases d.forest.childKeys? other <;> rfl
  · rw [children_of_not_mem hstays]
    by_cases hremoved : other ∈ (d.remove key).1
    · rw [if_pos hremoved]
    · have hdead : other ∉ d.forest.keys := fun hlive =>
        hstays ((mem_keys_remove_iff hsound).mpr ⟨hlive, hremoved⟩)
      rw [if_neg hremoved, children_of_not_mem hdead, List.erase_nil]

/-! ## Moving a region -/

theorem roots_setBounds (hsound : d.Sound) (key : RegionKey) (bounds : Rectangle) :
    (d.setBounds key bounds).2.roots = d.roots := by
  rw [roots_eq_rootKeys, forest_setBounds hsound,
    Forest.rootKeys_map (Region.key_placed key bounds), roots_eq_rootKeys]

theorem children_setBounds (hsound : d.Sound) (key : RegionKey) (bounds : Rectangle)
    (other : RegionKey) : (d.setBounds key bounds).2.children other = d.children other := by
  rw [children_eq_childKeys?, forest_setBounds hsound,
    Forest.childKeys?_map (Region.key_placed key bounds), children_eq_childKeys?]

end Diagram

end NestedHover
