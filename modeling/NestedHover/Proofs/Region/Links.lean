import NestedHover.Proofs.Region.Ownership

/-!
# Parents and children

A diagram answers who the parent of a region is from the way up of that region, and who
its children are from the forest below it.  In a forest in which no key occurs twice the
two answers fit together: a region is listed among the children of its parent, and a
region without a parent is listed among the roots.

Main results:

- Theorems {lit}`Forest.path?_of_mem_roots` and {lit}`Forest.mem_roots_of_path?`: the roots
  are the regions whose way up is over at once.
- Theorems {lit}`Forest.path?_of_mem_roots_below` and {lit}`Forest.find?_of_path?`: the
  children of a region are those whose way up leads to it first.
- Theorem {lit}`Diagram.parent?_eq_some_iff`: a region has the given parent exactly when it
  is listed among its children.
- Theorem {lit}`Diagram.mem_roots_iff`: a live region has no parent exactly when it is listed
  among the roots.
-/

namespace NestedHover

namespace Forest

variable {f below : Forest} {key : RegionKey} {r q root : Region}

/-! ## Listed regions -/

/-- The roots come in paint order. -/
theorem roots_sublist_regions (f : Forest) : f.roots.Sublist f.regions := by
  induction f with
  | nil => exact List.Sublist.refl _
  | tree root children siblings _ ihs =>
      exact (ihs.trans (List.sublist_append_right _ _)).cons_cons root

/-- A region that is found and all below it come in paint order. -/
theorem sublist_regions_of_find? (h : f.find? key = some (r, below)) :
    (r :: below.regions).Sublist f.regions := by
  induction f with
  | nil => simp [find?] at h
  | tree root children siblings ihc ihs =>
      rw [regions]
      by_cases hroot : root.key = key
      · simp only [find?, hroot, if_true, Option.some.injEq, Prod.mk.injEq] at h
        rcases h with ⟨rfl, rfl⟩
        exact (List.sublist_append_left _ _).cons_cons root
      · simp only [find?, hroot, if_false] at h
        rcases Option.or_eq_some_iff.mp h with hc | ⟨-, hs⟩
        · exact ((ihc hc).trans (List.sublist_append_left _ _)).cons root
        · exact ((ihs hs).trans (List.sublist_append_right _ _)).cons root

/-- The children of a region that is found come in paint order. -/
theorem roots_sublist_regions_of_find? (h : f.find? key = some (r, below)) :
    below.roots.Sublist f.regions :=
  (roots_sublist_regions below).trans
    ((List.sublist_cons_self r below.regions).trans (sublist_regions_of_find? h))

/-! ## Finding a region in one part of a tree -/

theorem find?_tree_of_mem_children {children siblings : Forest} (hroot : root.key ≠ key)
    (h : key ∈ children.keys) :
    (tree root children siblings).find? key = children.find? key := by
  rcases Option.isSome_iff_exists.mp (isSome_find?_iff.mpr h) with ⟨found, hfound⟩
  simp [find?, hroot, hfound]

theorem find?_tree_of_not_mem_children {children siblings : Forest}
    (hroot : root.key ≠ key) (h : key ∉ children.keys) :
    (tree root children siblings).find? key = siblings.find? key := by
  simp [find?, hroot, find?_eq_none_iff.mpr h]

/-- A part of a forest: its keys are distinct, and its regions are found in the forest as in
the part. -/
structure IsPart (part f : Forest) : Prop where
  nodup : part.keys.Nodup
  find?_eq : ∀ key ∈ part.keys, f.find? key = part.find? key

theorem isPart_self (hnodup : f.keys.Nodup) : f.IsPart f := ⟨hnodup, fun _ _ => rfl⟩

theorem IsPart.children {children siblings : Forest}
    (h : (tree root children siblings).IsPart f) : children.IsPart f := by
  rcases nodup_keys_tree_iff.mp h.nodup with ⟨hroot, -, hnodup, -, -⟩
  refine ⟨hnodup, fun key hkey => ?_⟩
  have hne : root.key ≠ key := fun e => hroot (e ▸ hkey)
  exact (h.find?_eq key (by simp [hkey])).trans (find?_tree_of_mem_children hne hkey)

theorem IsPart.siblings {children siblings : Forest}
    (h : (tree root children siblings).IsPart f) : siblings.IsPart f := by
  rcases nodup_keys_tree_iff.mp h.nodup with ⟨-, hroot, -, hnodup, hdisjoint⟩
  refine ⟨hnodup, fun key hkey => ?_⟩
  have hne : root.key ≠ key := fun e => hroot (e ▸ hkey)
  have hchild : key ∉ children.keys := fun hmem => hdisjoint key hmem hkey
  exact (h.find?_eq key (by simp [hkey])).trans (find?_tree_of_not_mem_children hne hchild)

/-! ## Roots and the way up -/

/-- The way up from a root is over at once. -/
theorem path?_of_mem_roots (hnodup : f.keys.Nodup) (h : r ∈ f.roots) :
    f.path? r.key = some [r] := by
  induction f with
  | nil => cases h
  | tree root children siblings ihc ihs =>
      rcases nodup_keys_tree_iff.mp hnodup with ⟨-, hs, -, hss, hdisjoint⟩
      rcases List.mem_cons.mp h with rfl | h
      · simp [path?]
      · have hmem : r.key ∈ siblings.keys :=
          key_mem_keys ((roots_sublist_regions siblings).mem h)
        have hne : root.key ≠ r.key := fun e => hs (e ▸ hmem)
        rw [path?_tree_of_not_mem_children hne fun hc => hdisjoint _ hc hmem]
        exact ihs hss h

/-- A region whose way up is over at once is a root. -/
theorem mem_roots_of_path? (h : f.path? key = some [r]) : r ∈ f.roots := by
  induction f with
  | nil => simp [path?] at h
  | tree root children siblings ihc ihs =>
      by_cases hroot : root.key = key
      · simp only [path?, hroot, if_true, Option.some.injEq, List.cons.injEq, and_true] at h
        exact List.mem_cons.mpr (Or.inl h.symm)
      · simp only [path?, hroot, if_false] at h
        rcases Option.or_eq_some_iff.mp h with hc | ⟨-, hs⟩
        · -- from inside the first tree the way up leads to its root at least
          rcases Option.map_eq_some_iff.mp hc with ⟨inner, hinner, hsplit⟩
          rcases head_of_path? hinner with ⟨first, rest, rfl, -⟩
          simp at hsplit
        · exact List.mem_cons_of_mem _ (ihs hs)

/-! ## Children and the way up -/

/-- The way up from a child leads to its parent first. -/
theorem path?_of_mem_roots_below (hnodup : f.keys.Nodup)
    (hfind : f.find? key = some (q, below)) (h : r ∈ below.roots) :
    ∃ after, f.path? r.key = some (r :: q :: after) := by
  have hmem : r.key ∈ f.keys :=
    key_mem_keys ((roots_sublist_regions_of_find? hfind).mem h)
  induction f with
  | nil => simp [find?] at hfind
  | tree root children siblings ihc ihs =>
      rcases nodup_keys_tree_iff.mp hnodup with ⟨hc, hs, hcs, hss, hdisjoint⟩
      by_cases hroot : root.key = key
      · simp only [find?, hroot, if_true, Option.some.injEq, Prod.mk.injEq] at hfind
        rcases hfind with ⟨rfl, rfl⟩
        have hchild : r.key ∈ children.keys :=
          key_mem_keys ((roots_sublist_regions children).mem h)
        have hne : root.key ≠ r.key := fun e => hc (e ▸ hchild)
        rw [path?_tree_of_mem_children hne hchild, path?_of_mem_roots hcs h]
        exact ⟨[], rfl⟩
      · simp only [find?, hroot, if_false] at hfind
        rcases Option.or_eq_some_iff.mp hfind with hfound | ⟨-, hfound⟩
        · have hchild : r.key ∈ children.keys :=
            key_mem_keys ((roots_sublist_regions_of_find? hfound).mem h)
          have hne : root.key ≠ r.key := fun e => hc (e ▸ hchild)
          rcases ihc hcs hfound hchild with ⟨after, hpath⟩
          rw [path?_tree_of_mem_children hne hchild, hpath]
          exact ⟨after ++ [root], rfl⟩
        · have hsibling : r.key ∈ siblings.keys :=
            key_mem_keys ((roots_sublist_regions_of_find? hfound).mem h)
          have hne : root.key ≠ r.key := fun e => hs (e ▸ hsibling)
          rw [path?_tree_of_not_mem_children hne fun hchild => hdisjoint _ hchild hsibling]
          exact ihs hss hfound hsibling

/-- Whoever comes first on the way up of a region has it among the children. -/
theorem find?_of_path? {after : List Region} (hnodup : f.keys.Nodup)
    (h : f.path? key = some (r :: q :: after)) :
    ∃ below, f.find? q.key = some (q, below) ∧ r ∈ below.roots := by
  induction f generalizing after with
  | nil => simp [path?] at h
  | tree root children siblings ihc ihs =>
      rcases nodup_keys_tree_iff.mp hnodup with ⟨hc, hs, hcs, hss, hdisjoint⟩
      by_cases hroot : root.key = key
      · simp [path?, hroot] at h
      · simp only [path?, hroot, if_false] at h
        rcases Option.or_eq_some_iff.mp h with hpath | ⟨-, hpath⟩
        · rcases Option.map_eq_some_iff.mp hpath with ⟨inner, hinner, hsplit⟩
          rcases head_of_path? hinner with ⟨first, inner, rfl, -⟩
          -- the root comes last, so either it is the parent or the parent lies below it
          cases inner with
          | nil =>
              obtain ⟨rfl, rfl, -⟩ : first = r ∧ root = q ∧ [] = after := by simpa using hsplit
              exact ⟨children, by simp [find?], mem_roots_of_path? hinner⟩
          | cons second rest =>
              obtain ⟨rfl, rfl, -⟩ : first = r ∧ second = q ∧ rest ++ [root] = after := by
                simpa using hsplit
              rcases ihc hcs hinner with ⟨below, hfind, hmem⟩
              have hchild : second.key ∈ children.keys :=
                key_mem_keys (mem_regions_of_mem_path? hinner (by simp))
              have hne : root.key ≠ second.key := fun e => hc (e ▸ hchild)
              exact ⟨below, by rw [find?_tree_of_mem_children hne hchild, hfind], hmem⟩
        · rcases ihs hss hpath with ⟨below, hfind, hmem⟩
          have hsibling : q.key ∈ siblings.keys :=
            key_mem_keys (mem_regions_of_mem_path? hpath (by simp))
          have hne : root.key ≠ q.key := fun e => hs (e ▸ hsibling)
          refine ⟨below, ?_, hmem⟩
          rw [find?_tree_of_not_mem_children hne fun hchild => hdisjoint _ hchild hsibling,
            hfind]

end Forest

namespace Diagram

variable {d : Diagram} {key parent : RegionKey}

/-- The roots come in paint order. -/
theorem roots_sublist_keys (d : Diagram) : d.roots.Sublist d.forest.keys :=
  (Forest.roots_sublist_regions d.forest).map Region.key

/-- The children of a region come in paint order. -/
theorem children_sublist_keys (d : Diagram) (parent : RegionKey) :
    (d.children parent).Sublist d.forest.keys := by
  unfold children
  cases hfind : d.forest.find? parent with
  | none => exact List.nil_sublist _
  | some found => exact (Forest.roots_sublist_regions_of_find? hfind).map Region.key

/-- The way up that a diagram answers is that of the forest, if there is one. -/
theorem path?_of_ancestors_eq_cons {r : Region} {after : List Region}
    (h : d.ancestors key = r :: after) : d.forest.path? key = some (r :: after) := by
  unfold ancestors at h
  cases hpath : d.forest.path? key with
  | none => simp [hpath] at h
  | some path => simpa [hpath] using h

/-- A region has the given parent exactly when it is listed among its children. -/
theorem parent?_eq_some_iff (hsound : d.Sound) :
    d.parent? key = some parent ↔ key ∈ d.children parent := by
  constructor
  · intro h
    rcases exists_ancestors_of_parent?_eq_some h with ⟨r, q, after, hway, rfl, rfl⟩
    rcases Forest.find?_of_path? hsound.nodup_keys (path?_of_ancestors_eq_cons hway) with
      ⟨below, hfind, hmem⟩
    rw [children, hfind]
    exact List.mem_map_of_mem hmem
  · intro h
    unfold children at h
    cases hfind : d.forest.find? parent with
    | none => simp [hfind] at h
    | some found =>
        rcases found with ⟨q, below⟩
        rw [hfind] at h
        rcases List.mem_map.mp h with ⟨r, hr, rfl⟩
        rcases Forest.path?_of_mem_roots_below hsound.nodup_keys hfind hr with ⟨after, hpath⟩
        simp [parent?, ancestors, hpath, Forest.key_of_find?_eq_some hfind]

/-- A live region has no parent exactly when it is listed among the roots. -/
theorem mem_roots_iff (hsound : d.Sound) :
    key ∈ d.roots ↔ d.contains key = true ∧ d.parent? key = none := by
  unfold roots parent?
  constructor
  · intro h
    refine ⟨contains_eq_true_iff.mpr ((roots_sublist_keys d).mem h), ?_⟩
    rcases List.mem_map.mp h with ⟨r, hr, rfl⟩
    simp [ancestors, Forest.path?_of_mem_roots hsound.nodup_keys hr]
  · rintro ⟨hlive, hnone⟩
    rcases exists_ancestors_eq_cons (contains_eq_true_iff.mp hlive) with ⟨r, after, hway, rfl⟩
    obtain rfl : after = [] := by
      cases after with
      | nil => rfl
      | cons q after => simp [hway] at hnone
    exact List.mem_map_of_mem (Forest.mem_roots_of_path? (path?_of_ancestors_eq_cons hway))

end Diagram

end NestedHover
