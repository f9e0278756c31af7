import NestedHover.Proofs.Region.Siblings
import NestedHover.Proofs.Region.View

/-!
# Well-formed diagrams

Parents and lists of siblings are two views of one arrangement.  Going from parent to
parent leads from every live region up to a root, through no region twice; going down
the lists of siblings from the roots leads to every live region once.

Changes keep the lists of siblings in the order of addition.  That order is read off a
log: a key is appended when it is handed out and dropped when its region is removed.

Main results:

- Theorems {lit}`climb_iff` and {lit}`tour_iff`: the walk up from a live region is its
  way up, and the walk down from the roots is the paint order.
- Theorem {lit}`Sound.wellFormed`: a diagram with one key for each slot is well-formed.
- Theorems {lit}`chronological_insert?`, {lit}`chronological_remove` and
  {lit}`chronological_setBounds`: every change keeps the lists of siblings in the order of
  addition.
-/

namespace NestedHover

namespace Diagram

variable {d next : Diagram} {key parent : RegionKey} {way visited log : List RegionKey}

/-! ## The walk up -/

/-- Only live regions have children. -/
theorem contains_of_parent? (hsound : d.Sound) (h : d.parent? key = some parent) :
    d.contains parent = true := by
  rw [contains_eq_true_iff]
  by_contra hdead
  rw [parent?_eq_some_iff hsound, children_of_not_mem hdead] at h
  exact List.not_mem_nil h

/-- The walk up from a live region is its way up. -/
theorem climb_ancestors (hsound : d.Sound) (hlive : d.contains key = true) :
    d.view.Climb key ((d.ancestors key).map Region.key) := by
  rw [contains_eq_true_iff] at hlive
  generalize hway : d.ancestors key = way
  induction way generalizing key with
  | nil =>
      rcases exists_ancestors_eq_cons hlive with ⟨r, after, hcons, -⟩
      rw [hway] at hcons
      cases hcons
  | cons r after ih =>
      rcases exists_ancestors_eq_cons hlive with ⟨first, rest, hcons, hkey⟩
      obtain rfl : r = first := (List.cons.inj (hway.symm.trans hcons)).1
      rw [List.map_cons, hkey]
      cases after with
      | nil => exact View.Climb.top (by simp [parent?, hway])
      | cons q after =>
          have hparent : d.parent? key = some q.key := by simp [parent?, hway]
          have hrest : d.ancestors q.key = q :: after :=
            ancestors_of_append hsound (show _ = [r] ++ q :: after from hway)
          have hq := contains_eq_true_iff.mp (contains_of_parent? hsound hparent)
          exact View.Climb.up hparent (ih hq hrest)

theorem climb_iff (hsound : d.Sound) (hlive : d.contains key = true) :
    d.view.Climb key way ↔ way = (d.ancestors key).map Region.key := by
  constructor
  · exact (climb_ancestors hsound hlive).eq
  · rintro rfl
    exact climb_ancestors hsound hlive

/-- The walk up from a live region ends at a root. -/
theorem exists_root_of_climb (hsound : d.Sound) (h : d.view.Climb key way)
    (hlive : d.contains key = true) : ∃ root ∈ d.roots, way.getLast? = some root := by
  induction h with
  | top hnone => exact ⟨_, (mem_roots_iff hsound).mpr ⟨hlive, hnone⟩, rfl⟩
  | up hparent hway ih =>
      rcases ih (contains_of_parent? hsound hparent) with ⟨root, hroot, hlast⟩
      exact ⟨root, hroot, by simp [List.getLast?_cons, hlast]⟩

theorem length_keys (d : Diagram) : d.forest.keys.length = d.size := by
  rw [Forest.keys, List.length_map, size]

/-- A walk up takes no more steps than there are regions. -/
theorem length_ancestors_le (hsound : d.Sound) (key : RegionKey) :
    ((d.ancestors key).map Region.key).length ≤ d.size := by
  have hsub : (d.ancestors key).map Region.key ⊆ d.forest.keys := by
    intro k hk
    rcases List.mem_map.mp hk with ⟨r, hr, rfl⟩
    exact Forest.key_mem_keys (mem_regions_of_mem_ancestors hr)
  rw [← length_keys]
  exact (List.subperm_of_subset (nodup_ancestors hsound key) hsub).length_le

/-! ## The walk down -/

/-- The walk down from the roots of a part of the forest is the paint order of that
part. -/
theorem tour_of_isPart (part : Forest) (h : part.IsPart d.forest) :
    d.Tour part.rootKeys part.keys := by
  induction part with
  | nil => exact View.Tour.done
  | tree root children siblings ihc ihs =>
      have hroot : d.view.children root.key = children.rootKeys := by
        change d.children root.key = children.rootKeys
        rw [Diagram.children, h.find?_eq root.key (by simp)]
        simp [Forest.find?, Forest.rootKeys]
      rw [Forest.rootKeys_tree, Forest.keys_tree]
      refine View.Tour.visit ?_ (ihs h.siblings)
      rw [hroot]
      exact ihc h.children

theorem tour_iff (hsound : d.Sound) : d.Tour d.roots visited ↔ visited = d.forest.keys := by
  have htour : d.Tour d.roots d.forest.keys :=
    tour_of_isPart d.forest (Forest.isPart_self hsound.nodup_keys)
  constructor
  · exact htour.eq
  · rintro rfl
    exact htour

/-! ## Well-formedness -/

/-- A diagram with one key for each slot is well-formed. -/
theorem Sound.wellFormed (hsound : d.Sound) : d.view.WellFormed where
  live_root key hkey := ((mem_roots_iff hsound).mp hkey).1
  live_child parent _ hkey :=
    contains_eq_true_iff.mpr ((children_sublist_keys d parent).mem hkey)
  live_parent _ _ hparent := contains_of_parent? hsound hparent
  count_roots key hlive := by
    change d.contains key = true at hlive
    have hnodup : d.roots.Nodup := hsound.nodup_keys.sublist (roots_sublist_keys d)
    simp [hnodup.count, mem_roots_iff hsound, hlive]
  count_children key _ parent := by
    have hnodup : (d.children parent).Nodup :=
      hsound.nodup_keys.sublist (children_sublist_keys d parent)
    simp [hnodup.count, parent?_eq_some_iff hsound]
  climb _ hlive _ := climb_iff hsound hlive
  climb_nodup key := nodup_ancestors hsound key
  climb_length key := length_ancestors_le hsound key
  climb_root _ hlive := exists_root_of_climb hsound (climb_ancestors hsound hlive) hlive
  tour := ⟨d.forest.keys, fun _ => tour_iff hsound, hsound.nodup_keys,
    fun _ => contains_eq_true_iff.symm, length_keys d⟩

/-! ## The order of addition -/

theorem chronological_empty : ({} : Diagram).view.Chronological [] where
  nodup := List.nodup_nil
  mem_iff _ := by simp [contains, region?, Forest.find?]
  roots := List.Sublist.refl _
  children _ := List.Sublist.refl _

/-- An added region comes last in the log and last among its siblings. -/
theorem chronological_insert? (hsound : d.Sound) (h : d.view.Chronological log)
    {parent : Option RegionKey} {kind : RegionKind} {bounds : Rectangle}
    (hinsert : d.insert? parent kind bounds = some (key, next)) :
    next.view.Chronological (log ++ [key]) := by
  have hlast : ∀ {listed : List RegionKey}, listed.Sublist log →
      (listed ++ [key]).Sublist (log ++ [key]) := fun hlisted => hlisted.append_right [key]
  have hkept : ∀ {listed : List RegionKey}, listed.Sublist log →
      listed.Sublist (log ++ [key]) := fun hlisted =>
    hlisted.trans (List.sublist_append_left log [key])
  constructor
  · have hnew := not_mem_keys_of_insert? hsound hinsert
    rw [← contains_eq_true_iff, ← h.mem_iff] at hnew
    rw [List.nodup_append', List.disjoint_singleton]
    exact ⟨h.nodup, List.nodup_singleton key, hnew⟩
  · intro k
    rw [List.mem_append, List.mem_singleton, h.mem_iff, contains_eq_true_iff,
      contains_eq_true_iff, mem_keys_insert?_iff hsound hinsert, or_comm]
  · change next.roots.Sublist (log ++ [key])
    rw [roots_insert? hinsert]
    split
    · exact hlast h.roots
    · exact hkept h.roots
  · intro other
    change (next.children other).Sublist (log ++ [key])
    rw [children_insert? hsound hinsert]
    split
    · exact hlast (h.children other)
    · exact hkept (h.children other)

/-- Removed regions leave the log and the lists of siblings. -/
theorem chronological_remove (hsound : d.Sound) (h : d.view.Chronological log)
    (key : RegionKey) :
    (d.remove key).2.view.Chronological (log.filter fun k => k ∉ (d.remove key).1) := by
  -- what is still listed afterwards is live, so the filter does not drop it
  have hlisted : ∀ {listed old : List RegionKey}, old.Sublist log → listed.Sublist old →
      (∀ k ∈ listed, (d.remove key).2.contains k = true) →
      listed.Sublist (log.filter fun k => k ∉ (d.remove key).1) := by
    intro listed old hold hsub hlive
    have hstays : listed.filter (fun k => k ∉ (d.remove key).1) = listed := by
      rw [List.filter_eq_self]
      intro k hk
      have hkept := contains_eq_true_iff.mp (hlive k hk)
      exact decide_eq_true ((mem_keys_remove_iff hsound).mp hkept).2
    rw [← hstays]
    exact (hsub.trans hold).filter _
  have hwell := (hsound.remove key).wellFormed
  constructor
  · exact h.nodup.filter _
  · intro k
    rw [List.mem_filter, h.mem_iff, decide_eq_true_eq, contains_eq_true_iff,
      contains_eq_true_iff, mem_keys_remove_iff hsound]
  · refine hlisted h.roots ?_ hwell.live_root
    change (d.remove key).2.roots.Sublist d.roots
    rw [roots_remove]
    exact List.erase_sublist
  · intro other
    refine hlisted (h.children other) ?_ (hwell.live_child other)
    change ((d.remove key).2.children other).Sublist (d.children other)
    rw [children_remove hsound]
    split
    · exact List.nil_sublist _
    · exact List.erase_sublist

theorem chronological_setBounds (hsound : d.Sound) (h : d.view.Chronological log)
    (key : RegionKey) (bounds : Rectangle) :
    (d.setBounds key bounds).2.view.Chronological log where
  nodup := h.nodup
  mem_iff k := by
    change k ∈ log ↔ (d.setBounds key bounds).2.contains k = true
    rw [contains_setBounds]
    exact h.mem_iff k
  roots := by
    change (d.setBounds key bounds).2.roots.Sublist log
    rw [roots_setBounds hsound]
    exact h.roots
  children other := by
    change ((d.setBounds key bounds).2.children other).Sublist log
    rw [children_setBounds hsound]
    exact h.children other

end Diagram

end NestedHover
