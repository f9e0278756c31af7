import NestedHover.Proofs.Region.Subtrees

/-!
# Added regions

An added region is where it was asked for, and all others stay as they are.  Whatever has been
added within a region goes when that region is pruned, so that pruning the region undoes all
of it.

Main results:

- Theorems {lit}`parent?_insert?_self` and {lit}`parent?_insert?_of_ne`: the parents after
  adding a region.
- Theorem {lit}`prune_insert?_self`: pruning an added region undoes adding it.
- Theorem {lit}`prune_insert?`: what is added within a region goes with it.
-/

namespace NestedHover

namespace Diagram

variable {d next : Diagram} {parent : Option RegionKey} {kind : RegionKind}
  {bounds : Rectangle} {region key other : RegionKey}

/-! ## Adding a region -/

theorem region?_insert?_self (hsound : d.Sound)
    (h : d.insert? parent kind bounds = some (key, next)) :
    next.region? key = some ⟨key, kind, bounds⟩ :=
  region?_of_mem_regions (hsound.insert? h)
    ((mem_regions_insert?_iff hsound h).mpr (Or.inl rfl))

theorem region?_insert?_of_ne (hsound : d.Sound)
    (h : d.insert? parent kind bounds = some (key, next)) (hne : other ≠ key) :
    next.region? other = d.region? other := by
  rw [region?_eq_head?, ancestors_insert? hsound h hne, region?_eq_head?]

theorem parent?_insert?_self (hsound : d.Sound)
    (h : d.insert? parent kind bounds = some (key, next)) : next.parent? key = parent := by
  have hnext : next.Sound := hsound.insert? h
  cases parent with
  | none =>
      have hroot : key ∈ next.roots := by simp [roots_insert? h]
      exact ((mem_roots_iff hnext).mp hroot).2
  | some parent =>
      rw [parent?_eq_some_iff hnext, children_insert? hsound h, if_pos rfl]
      exact List.mem_append_right _ (List.mem_singleton_self key)

theorem parent?_insert?_of_ne (hsound : d.Sound)
    (h : d.insert? parent kind bounds = some (key, next)) (hne : other ≠ key) :
    next.parent? other = d.parent? other := by
  rw [parent?, ancestors_insert? hsound h hne, parent?]

/-- Pruning an added region gives the forest back. -/
theorem prune_insert?_self (hsound : d.Sound)
    (h : d.insert? parent kind bounds = some (key, next)) :
    next.forest.prune key = d.forest := by
  let leaf : Region := ⟨d.pool.next, kind, bounds⟩
  have hnew : leaf.key ∉ d.forest.keys := by
    have hfresh := not_mem_keys_of_insert? hsound h
    rw [(insert?_cases hsound h).1] at hfresh
    exact hfresh
  cases parent with
  | none =>
      simp only [insert?, Option.some.injEq, Prod.mk.injEq] at h
      rcases h with ⟨rfl, rfl⟩
      exact Forest.prune_plant hnew
  | some parent =>
      simp only [insert?] at h
      split at h
      · simp only [Option.some.injEq, Prod.mk.injEq] at h
        rcases h with ⟨rfl, rfl⟩
        exact Forest.prune_graft_leaf parent hnew
      · cases h

/-- What is added below a pruned region goes with it. -/
theorem prune_insert? {parent : RegionKey}
    (h : d.insert? (some parent) kind bounds = some (key, next))
    (hparent : parent ∉ (d.forest.prune region).keys) :
    next.forest.prune region = d.forest.prune region := by
  simp only [insert?] at h
  split at h
  · simp only [Option.some.injEq, Prod.mk.injEq] at h
    rcases h with ⟨rfl, rfl⟩
    exact Forest.prune_graft hparent
  · cases h

/-- Whether a key names a region within the given one, or none that is live. -/
def isInside (d : Diagram) (region key : RegionKey) : Bool :=
  !d.contains key || d.isWithin key region

/-- Who is inside a region does not stay when that region is pruned. -/
theorem not_mem_prune_of_isInside (hsound : d.Sound) (h : d.isInside region key = true) :
    key ∉ (d.forest.prune region).keys := by
  rw [← forest_remove, mem_keys_remove_iff hsound, mem_remove_iff hsound]
  rintro ⟨hlive, hbeside⟩
  rw [← contains_eq_true_iff] at hlive
  simp only [isInside, hlive, Bool.not_true, Bool.false_or] at h
  exact hbeside h

end Diagram

end NestedHover
