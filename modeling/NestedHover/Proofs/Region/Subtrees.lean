import NestedHover.Proofs.Region.WellFormed

/-!
# Removed subtrees

Removing a region takes the regions within it and no others.  They are reported in the order
of the walk down from the region, so each comes before those below it.  Whoever stays keeps
its way up, and with it its parent, its kind and its bounds; the only list of siblings that
changes is the one that the removed region was in.

Main results:

- Theorem {lit}`Forest.path?_of_mem_below`: the way up from below a region leads through the
  region and then along its own way up.
- Theorem {lit}`Forest.pairwise_keys`: in paint order no region comes after one within it.
- Theorem {lit}`mem_remove_iff`: exactly the regions within the given one are removed.
- Theorem {lit}`Sound.cut`: what removing a live region takes and what it leaves.
-/

namespace NestedHover

namespace Forest

variable {f below : Forest} {key other : RegionKey} {r : Region}

/-! ## Below a region -/

theorem nodup_keys_of_find? (hnodup : f.keys.Nodup) (h : f.find? key = some (r, below)) :
    (r.key :: below.keys).Nodup :=
  hnodup.sublist ((sublist_regions_of_find? h).map Region.key)

theorem mem_keys_of_mem_below (hfind : f.find? key = some (r, below))
    (h : other ∈ below.keys) : other ∈ f.keys :=
  ((sublist_regions_of_find? hfind).map Region.key).mem (List.mem_cons_of_mem _ h)

/-- The region that is found is the first on its way up. -/
theorem map_fst_find? (key : RegionKey) (f : Forest) :
    (f.find? key).map Prod.fst = (f.path? key).bind List.head? := by
  induction f with
  | nil => rfl
  | tree root children siblings ihc ihs =>
      by_cases hroot : root.key = key
      · simp [find?, path?, hroot]
      · cases hpath : children.path? key with
        | none =>
            have hfind := find?_eq_none_iff.mpr (path?_eq_none_iff.mp hpath)
            simpa [find?, path?, hroot, hpath, hfind] using ihs
        | some path =>
            rcases head_of_path? hpath with ⟨first, rest, rfl, -⟩
            rw [hpath] at ihc
            rcases Option.map_eq_some_iff.mp ihc with ⟨found, hfind, rfl⟩
            simp [find?, path?, hroot, hpath, hfind]

/-- A region below another one is found in the forest as it is found there. -/
theorem find?_of_mem_below (hnodup : f.keys.Nodup) (hfind : f.find? key = some (r, below))
    (h : other ∈ below.keys) : f.find? other = below.find? other := by
  induction f with
  | nil => simp [find?] at hfind
  | tree root children siblings ihc ihs =>
      rcases nodup_keys_tree_iff.mp hnodup with ⟨hc, hs, hcs, hss, hdisjoint⟩
      by_cases hroot : root.key = key
      · simp only [find?, hroot, if_true, Option.some.injEq, Prod.mk.injEq] at hfind
        rcases hfind with ⟨rfl, rfl⟩
        exact find?_tree_of_mem_children (fun e => hc (e ▸ h)) h
      · simp only [find?, hroot, if_false] at hfind
        rcases Option.or_eq_some_iff.mp hfind with hfound | ⟨-, hfound⟩
        · have hchild := mem_keys_of_mem_below hfound h
          rw [find?_tree_of_mem_children (fun e => hc (e ▸ hchild)) hchild]
          exact ihc hcs hfound
        · have hsibling := mem_keys_of_mem_below hfound h
          rw [find?_tree_of_not_mem_children (fun e => hs (e ▸ hsibling))
            fun hchild => hdisjoint _ hchild hsibling]
          exact ihs hss hfound

/-- A region with all below it is a part of the forest. -/
theorem isPart_subtree (hnodup : f.keys.Nodup) (hfind : f.find? key = some (r, below)) :
    (tree r below nil).IsPart f := by
  have hkey := key_of_find?_eq_some hfind
  have hkeys : (tree r below nil).keys = r.key :: below.keys := by simp
  have hsubtree := nodup_keys_of_find? hnodup hfind
  refine ⟨hkeys ▸ hkey ▸ hsubtree, fun other hother => ?_⟩
  rw [hkeys, List.mem_cons] at hother
  rcases hother with rfl | hother
  · rw [hkey, hfind]
    simp [find?, hkey]
  · have hne : r.key ≠ other := fun e => (List.nodup_cons.mp hsubtree).1 (e ▸ hother)
    rw [find?_of_mem_below hnodup hfind hother, find?_tree_of_mem_children hne hother]

/-- The way up from below a region leads to the region and then along its own way up. -/
theorem path?_of_mem_below (hnodup : f.keys.Nodup) (hfind : f.find? key = some (r, below))
    (h : other ∈ below.keys) :
    ∃ inner way, f.path? key = some way ∧ f.path? other = some (inner ++ way) := by
  induction f with
  | nil => simp [find?] at hfind
  | tree root children siblings ihc ihs =>
      rcases nodup_keys_tree_iff.mp hnodup with ⟨hc, hs, hcs, hss, hdisjoint⟩
      by_cases hroot : root.key = key
      · simp only [find?, hroot, if_true, Option.some.injEq, Prod.mk.injEq] at hfind
        rcases hfind with ⟨rfl, rfl⟩
        rcases Option.isSome_iff_exists.mp (isSome_path?_iff.mpr h) with ⟨inner, hinner⟩
        refine ⟨inner, [root], by simp [path?, hroot], ?_⟩
        rw [path?_tree_of_mem_children (fun e => hc (e ▸ h)) h, hinner, Option.map_some]
      · simp only [find?, hroot, if_false] at hfind
        rcases Option.or_eq_some_iff.mp hfind with hfound | ⟨-, hfound⟩
        · have hkey : key ∈ children.keys := isSome_find?_iff.mp (by simp [hfound])
          have hchild := mem_keys_of_mem_below hfound h
          rcases ihc hcs hfound with ⟨inner, way, hway, hpath⟩
          refine ⟨inner, way ++ [root], ?_, ?_⟩
          · rw [path?_tree_of_mem_children hroot hkey, hway, Option.map_some]
          · rw [path?_tree_of_mem_children (fun e => hc (e ▸ hchild)) hchild, hpath,
              Option.map_some, List.append_assoc]
        · have hkey : key ∈ siblings.keys := isSome_find?_iff.mp (by simp [hfound])
          have hsibling := mem_keys_of_mem_below hfound h
          rcases ihs hss hfound with ⟨inner, way, hway, hpath⟩
          refine ⟨inner, way, ?_, ?_⟩
          · rw [path?_tree_of_not_mem_children hroot fun hchild => hdisjoint _ hchild hkey,
              hway]
          · rw [path?_tree_of_not_mem_children (fun e => hs (e ▸ hsibling))
              (fun hchild => hdisjoint _ hchild hsibling), hpath]

/-- Who is neither the root nor on the way up among the children is not on the way up. -/
theorem not_mem_path?_tree {root : Region} {children siblings : Forest}
    {earlier later : RegionKey} (hroot : root.key ≠ earlier) (hearlier : earlier ∈ children.keys)
    (hlater : root.key ≠ later)
    (hup : ∀ path, children.path? earlier = some path → later ∉ path.map Region.key) :
    ∀ path, (tree root children siblings).path? earlier = some path →
      later ∉ path.map Region.key := by
  intro path hpath
  rw [path?_tree_of_mem_children hroot hearlier] at hpath
  rcases Option.map_eq_some_iff.mp hpath with ⟨inner, hinner, rfl⟩
  rw [List.map_append, List.mem_append, not_or, List.map_singleton, List.mem_singleton]
  exact ⟨hup inner hinner, hlater.symm⟩

/-- In paint order no region comes after one whose way up it is on. -/
theorem pairwise_keys (hnodup : f.keys.Nodup) :
    f.keys.Pairwise fun earlier later =>
      ∀ path, f.path? earlier = some path → later ∉ path.map Region.key := by
  induction f with
  | nil => exact List.Pairwise.nil
  | tree root children siblings ihc ihs =>
      rcases nodup_keys_tree_iff.mp hnodup with ⟨hc, hs, hcs, hss, hdisjoint⟩
      have hchild : ∀ key ∈ children.keys, root.key ≠ key := fun _ hkey e => hc (e ▸ hkey)
      have hsibling : ∀ key ∈ siblings.keys, root.key ≠ key := fun _ hkey e => hs (e ▸ hkey)
      rw [keys_tree, List.pairwise_cons, List.pairwise_append]
      refine ⟨?_, ?_, ?_, ?_⟩
      · intro later hlater path hpath
        have htop : (tree root children siblings).path? root.key = some [root] := by
          simp [path?]
        obtain rfl : [root] = path := Option.some.inj (htop.symm.trans hpath)
        rw [List.map_singleton, List.mem_singleton]
        rintro rfl
        exact (List.mem_append.mp hlater).elim hc hs
      · refine (ihc hcs).imp_of_mem ?_
        intro earlier later hearlier hlater hup
        exact not_mem_path?_tree (hchild earlier hearlier) hearlier (hchild later hlater) hup
      · refine (ihs hss).imp_of_mem ?_
        intro earlier later hearlier _ hup path hpath
        rw [path?_tree_of_not_mem_children (hsibling earlier hearlier)
          fun h => hdisjoint earlier h hearlier] at hpath
        exact hup path hpath
      · intro earlier hearlier later hlater
        refine not_mem_path?_tree (hchild earlier hearlier) hearlier (hsibling later hlater) ?_
        intro inner hinner hmem
        rcases List.mem_map.mp hmem with ⟨r, hr, rfl⟩
        exact hdisjoint r.key (key_mem_keys (mem_regions_of_mem_path? hinner hr)) hlater

end Forest

namespace Diagram

variable {d : Diagram} {key other : RegionKey}

/-! ## Queries along the way up -/

/-- A live region is the first on its way up. -/
theorem region?_eq_head? (d : Diagram) (key : RegionKey) :
    d.region? key = (d.ancestors key).head? := by
  rw [region?, Forest.map_fst_find?, ancestors]
  cases d.forest.path? key <;> rfl

/-- A region of the forest is found under its key. -/
theorem region?_of_mem_regions (hsound : d.Sound) {r : Region} (hr : r ∈ d.forest.regions) :
    d.region? r.key = some r := by
  rcases exists_ancestors_eq_cons (Forest.key_mem_keys hr) with ⟨found, after, hway, hkey⟩
  have hfound : found ∈ d.forest.regions :=
    mem_regions_of_mem_ancestors (show found ∈ d.ancestors r.key by simp [hway])
  rw [region?_eq_head?, hway, List.head?_cons,
    List.inj_on_of_nodup_map hsound.nodup_keys hfound hr hkey]

/-- In paint order no region comes after one within it. -/
theorem pairwise_isWithin (hsound : d.Sound) :
    d.forest.keys.Pairwise fun earlier later => d.isWithin earlier later = false := by
  refine (Forest.pairwise_keys hsound.nodup_keys).imp ?_
  intro earlier later hup
  rw [Bool.eq_false_iff]
  intro hwithin
  rcases List.any_eq_true.mp hwithin with ⟨r, hr, hkey⟩
  cases hpath : d.forest.path? earlier with
  | none => simp [ancestors, hpath] at hr
  | some path =>
      rw [ancestors, hpath, Option.getD_some] at hr
      exact hup path hpath (List.mem_map.mpr ⟨r, hr, by simpa using hkey⟩)

/-! ## What is removed -/

/-- Removing a live region reports the region and all below it. -/
theorem remove_of_find? {root : Region} {below : Forest}
    (hfind : d.forest.find? key = some (root, below)) :
    (d.remove key).1 = key :: below.keys := by
  simp [remove, hfind, Forest.key_of_find?_eq_some hfind]

/-- The removed regions leave the paint order of those that stay. -/
theorem perm_keys_remove (hsound : d.Sound) (key : RegionKey) :
    d.forest.keys.Perm ((d.remove key).1 ++ (d.remove key).2.forest.keys) := by
  rcases remove_cases hsound key with ⟨before, cut, after, hold, hremoved, hnew, -⟩
  rw [hremoved, Forest.keys, Forest.keys, hold, hnew, ← List.map_append, List.append_assoc]
  exact (List.perm_append_comm_assoc before cut after).map Region.key

/-- What is removed comes in paint order. -/
theorem removed_sublist_keys (hsound : d.Sound) (key : RegionKey) :
    (d.remove key).1.Sublist d.forest.keys := by
  rcases remove_cases hsound key with ⟨before, cut, after, hold, hremoved, -⟩
  rw [hremoved, Forest.keys, hold]
  exact ((List.sublist_append_right before cut).trans
    (List.sublist_append_left (before ++ cut) after)).map Region.key

/-- Exactly the regions within the given one are removed. -/
theorem mem_remove_iff (hsound : d.Sound) :
    other ∈ (d.remove key).1 ↔ d.isWithin other key = true := by
  constructor
  · intro hremoved
    cases hfind : d.forest.find? key with
    | none => simp [remove, hfind] at hremoved
    | some found =>
        rcases found with ⟨root, below⟩
        have hlive : key ∈ d.forest.keys := Forest.isSome_find?_iff.mp (by simp [hfind])
        rw [remove_of_find? hfind, List.mem_cons] at hremoved
        rcases hremoved with rfl | hbelow
        · exact isWithin_self hlive
        · rcases Forest.path?_of_mem_below hsound.nodup_keys hfind hbelow with
            ⟨inner, way, hway, hpath⟩
          rcases Forest.head_of_path? hway with ⟨r, rest, rfl, hr⟩
          exact isWithin_iff_exists_append.mpr
            ⟨inner, r, rest, by simp [ancestors, hpath], hr⟩
  · intro hwithin
    rcases mem_keys_of_isWithin hwithin with ⟨hlive, hkey⟩
    by_contra hnot
    -- a region that stays keeps its way up, which leads through regions that stay only
    have hstays := (mem_keys_remove_iff hsound).mpr ⟨hlive, hnot⟩
    have hafter : (d.remove key).2.isWithin other key = true := by
      rwa [isWithin, ancestors_remove hsound hstays]
    have hkept := ((mem_keys_remove_iff hsound).mp (mem_keys_of_isWithin hafter).2).2
    rcases Option.isSome_iff_exists.mp (Forest.isSome_find?_iff.mpr hkey) with
      ⟨⟨root, below⟩, hfind⟩
    exact hkept (by simp [remove_of_find? hfind])

/-- Whoever is not within the given region is not removed. -/
theorem not_mem_remove (hsound : d.Sound) (hother : d.isWithin other key = false) :
    other ∉ (d.remove key).1 := by
  rw [mem_remove_iff hsound, hother]
  exact Bool.false_ne_true

/-- What is removed is reported in the order of the walk down from the region. -/
theorem tour_remove (hsound : d.Sound) (hlive : d.contains key = true) :
    d.Tour [key] (d.remove key).1 := by
  rcases Option.isSome_iff_exists.mp
    (Forest.isSome_find?_iff.mpr (contains_eq_true_iff.mp hlive)) with ⟨⟨root, below⟩, hfind⟩
  have htour := tour_of_isPart _ (Forest.isPart_subtree hsound.nodup_keys hfind)
  rw [Forest.rootKeys_tree, Forest.keys_tree, Forest.key_of_find?_eq_some hfind] at htour
  rw [remove_of_find? hfind]
  simpa using htour

/-! ## What removing leaves -/

theorem size_remove (hsound : d.Sound) (key : RegionKey) :
    (d.remove key).2.size + (d.remove key).1.length = d.size := by
  have hlength := (perm_keys_remove hsound key).length_eq
  rw [List.length_append, length_keys, length_keys] at hlength
  omega

/-- Whoever is not within the removed region keeps its way up, be it live or not. -/
theorem ancestors_remove_of_not_within (hsound : d.Sound)
    (hother : d.isWithin other key = false) :
    (d.remove key).2.ancestors other = d.ancestors other := by
  have hkept := not_mem_remove hsound hother
  by_cases hlive : other ∈ d.forest.keys
  · exact ancestors_remove hsound ((mem_keys_remove_iff hsound).mpr ⟨hlive, hkept⟩)
  · have hgone : other ∉ (d.remove key).2.forest.keys := fun h =>
      hlive ((mem_keys_remove_iff hsound).mp h).1
    rw [ancestors, ancestors, Forest.path?_eq_none_iff.mpr hgone,
      Forest.path?_eq_none_iff.mpr hlive]

theorem region?_remove (hsound : d.Sound) (hother : d.isWithin other key = false) :
    (d.remove key).2.region? other = d.region? other := by
  rw [region?_eq_head?, ancestors_remove_of_not_within hsound hother, region?_eq_head?]

/-- Removing a live region takes the regions within it and leaves the others as they are. -/
theorem Sound.cut (hsound : d.Sound) (hlive : d.contains key = true) :
    d.view.Cut key (d.remove key).1 (d.remove key).2.view where
  mem_iff _ := mem_remove_iff hsound
  nodup := hsound.nodup_keys.sublist (removed_sublist_keys hsound key)
  tour := tour_remove hsound hlive
  head_eq := by
    have htour := tour_remove hsound hlive
    generalize (d.remove key).1 = removed at htour ⊢
    cases htour with
    | visit _ _ => rfl
  pairwise := (pairwise_isWithin hsound).sublist (removed_sublist_keys hsound key)
  dead other hremoved := by
    rw [contains_eq_false_iff, mem_keys_remove_iff hsound]
    exact fun h => h.2 hremoved
  size_eq := size_remove hsound key
  live _ hother := congrArg Option.isSome (region?_remove hsound hother)
  parent_eq _ hother :=
    congrArg (fun way => way[1]?.map Region.key) (ancestors_remove_of_not_within hsound hother)
  kind_eq _ hother := congrArg (Option.map Region.kind) (region?_remove hsound hother)
  bounds_eq _ hother := congrArg (Option.map Region.bounds) (region?_remove hsound hother)
  children_eq other hother := by
    change (d.remove key).2.children other =
      if d.parent? key = some other then (d.children other).erase key else d.children other
    rw [children_remove hsound, if_neg (not_mem_remove hsound hother)]
    split
    · rfl
    · rename_i hparent
      rw [parent?_eq_some_iff hsound] at hparent
      exact List.erase_of_not_mem hparent
  roots_eq := by
    change (d.remove key).2.roots = if d.parent? key = none then d.roots.erase key else d.roots
    rw [roots_remove]
    split
    · rfl
    · rename_i hparent
      apply List.erase_of_not_mem
      rw [mem_roots_iff hsound]
      exact fun h => hparent h.2

end Diagram

end NestedHover
