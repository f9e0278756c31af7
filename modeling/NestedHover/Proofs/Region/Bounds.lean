import NestedHover.Proofs.Region.Additions
import NestedHover.Proofs.Region.Freshness

/-!
# The bounds of a region

A region covers the bounds that it was given last.  Giving a region new bounds leaves its
kind, its links and its slot, and leaves every other region as it is.  What else is changed in
a diagram leaves the bounds of the regions that stay, even when slots are used again: the key
of a region that was removed does not come out a second time as long as at most
{lit}`0x80000000` regions (2^31) are added.

Main results:

- Theorem {lit}`sameBut_setBounds`: giving new bounds changes the bounds of one region at most,
  and nothing else.
- Theorem {lit}`shows_setBounds`: a region shows the bounds that it is given.
- Theorem {lit}`Shows.run`: along a run that adds at most 2^31 regions a region shows its bounds
  until it is given others.
-/

namespace NestedHover

namespace Diagram

variable {d middle next : Diagram} {key other : RegionKey} {bounds : Rectangle}
  {keys more out removed : List RegionKey}

/-! ## Giving new bounds -/

theorem region?_setBounds (hsound : d.Sound) (key : RegionKey) (bounds : Rectangle)
    (other : RegionKey) :
    (d.setBounds key bounds).2.region? other =
      (d.region? other).map (Region.placed key bounds) := by
  rw [region?_eq_head?, ancestors_setBounds hsound, List.head?_map, region?_eq_head?]

theorem bounds?_setBounds_self (hsound : d.Sound) (hlive : d.contains key = true)
    (bounds : Rectangle) : (d.setBounds key bounds).2.bounds? key = some bounds := by
  rcases Option.isSome_iff_exists.mp hlive with ⟨r, hr⟩
  have hkey : r.key = key := by
    rcases Option.map_eq_some_iff.mp hr with ⟨found, hfound, rfl⟩
    exact Forest.key_of_find?_eq_some hfound
  rw [bounds?, region?_setBounds hsound, hr]
  simp [Region.placed, hkey]

theorem bounds?_setBounds_of_ne (hsound : d.Sound) (hne : other ≠ key) (bounds : Rectangle) :
    (d.setBounds key bounds).2.bounds? other = d.bounds? other := by
  rw [bounds?, region?_setBounds hsound, bounds?]
  cases hr : d.region? other with
  | none => rfl
  | some r =>
      have hkey : r.key = other := by
        rcases Option.map_eq_some_iff.mp hr with ⟨found, hfound, rfl⟩
        exact Forest.key_of_find?_eq_some hfound
      simp [Region.placed, hkey, hne]

theorem kind?_setBounds (hsound : d.Sound) (key : RegionKey) (bounds : Rectangle)
    (other : RegionKey) : (d.setBounds key bounds).2.kind? other = d.kind? other := by
  rw [kind?, region?_setBounds hsound, Option.map_map, kind?]
  congr 1
  exact funext (Region.kind_placed key bounds)

theorem parent?_setBounds (hsound : d.Sound) (key : RegionKey) (bounds : Rectangle)
    (other : RegionKey) : (d.setBounds key bounds).2.parent? other = d.parent? other := by
  rw [parent?, ancestors_setBounds hsound, List.getElem?_map, Option.map_map, parent?]
  congr 1
  exact funext (Region.key_placed key bounds)

/-! ## What else is as it was -/

/-- The same regions of the same kinds, linked in the same way and with the same free slots;
only the given keys may have got other bounds. -/
structure SameBut (keys : List RegionKey) (d next : Diagram) : Prop where
  pool_eq : next.pool = d.pool
  roots_eq : next.roots = d.roots
  children_eq : ∀ key, next.children key = d.children key
  parent?_eq : ∀ key, next.parent? key = d.parent? key
  contains_eq : ∀ key, next.contains key = d.contains key
  kind?_eq : ∀ key, next.kind? key = d.kind? key
  bounds?_eq : ∀ key, key ∉ keys → next.bounds? key = d.bounds? key

/-- Giving new bounds changes the bounds of one region at most, and nothing else. -/
theorem sameBut_setBounds (hsound : d.Sound) (key : RegionKey) (bounds : Rectangle) :
    SameBut [key] d (d.setBounds key bounds).2 where
  pool_eq := rfl
  roots_eq := roots_setBounds hsound key bounds
  children_eq := children_setBounds hsound key bounds
  parent?_eq := parent?_setBounds hsound key bounds
  contains_eq := fun other => contains_setBounds d key other bounds
  kind?_eq := kind?_setBounds hsound key bounds
  bounds?_eq _ hother :=
    bounds?_setBounds_of_ne hsound (List.ne_of_not_mem_cons hother) bounds

theorem SameBut.trans (h : SameBut keys d middle) (hmore : SameBut more middle next) :
    SameBut (keys ++ more) d next where
  pool_eq := hmore.pool_eq.trans h.pool_eq
  roots_eq := hmore.roots_eq.trans h.roots_eq
  children_eq key := (hmore.children_eq key).trans (h.children_eq key)
  parent?_eq key := (hmore.parent?_eq key).trans (h.parent?_eq key)
  contains_eq key := (hmore.contains_eq key).trans (h.contains_eq key)
  kind?_eq key := (hmore.kind?_eq key).trans (h.kind?_eq key)
  bounds?_eq key hkey := by
    rw [List.mem_append, not_or] at hkey
    exact (hmore.bounds?_eq key hkey.2).trans (h.bounds?_eq key hkey.1)

/-! ## Showing bounds -/

/-- A key has been handed out, and its region has the given bounds if it is still live. -/
structure Shows (d : Diagram) (key : RegionKey) (bounds : Rectangle) : Prop where
  issued : d.Issued key
  bounds_eq : d.contains key = true → d.bounds? key = some bounds

/-- A region shows the bounds that it is given. -/
theorem shows_setBounds (hsound : d.Sound) (hissued : d.Issued key) (bounds : Rectangle) :
    (d.setBounds key bounds).2.Shows key bounds where
  issued := hissued.setBounds key bounds
  bounds_eq hlive := by
    rw [contains_setBounds] at hlive
    exact bounds?_setBounds_self hsound hlive bounds

/-- A region shows its bounds while others are given new ones. -/
theorem Shows.setBounds (hsound : d.Sound) (h : d.Shows key bounds) (hne : key ≠ other)
    (corner : Rectangle) : (d.setBounds other corner).2.Shows key bounds where
  issued := h.issued.setBounds other corner
  bounds_eq hlive := by
    rw [contains_setBounds] at hlive
    rw [bounds?_setBounds_of_ne hsound hne]
    exact h.bounds_eq hlive

/-- The key that a change gives new bounds. -/
def Operation.placed? : Operation → Option RegionKey
  | .setBounds key _ => some key
  | _ => none

/-- A change that gives a region no new bounds leaves those that it shows. -/
theorem Shows.perform (hrecorded : Recorded d out removed) (h : d.Shows key bounds)
    {change : Operation} (hspared : change.placed? ≠ some key)
    (hroom : out.length + (d.handsOut change).length ≤ 0x80000000) :
    (d.perform change).Shows key bounds := by
  have hsound := hrecorded.sound
  cases change with
  | insert parent kind corner =>
      cases hinsert : d.insert? parent kind corner with
      | none => simpa [Diagram.perform, hinsert] using h
      | some result =>
          rw [handsOut_insert hinsert, List.length_singleton] at hroom
          -- the new region may be in the slot of this key, but its key is another one
          have hne := ne_of_issued hsound hrecorded.handedOut hroom hinsert h.issued
          have hsame : result.2.region? key = d.region? key :=
            region?_insert?_of_ne hsound hinsert hne
          simp only [Diagram.perform, hinsert, Option.map_some, Option.getD_some]
          refine ⟨h.issued.insert? hsound hrecorded.handedOut hroom hinsert, fun hlive => ?_⟩
          rw [contains, hsame] at hlive
          rw [bounds?, hsame]
          exact h.bounds_eq hlive
  | remove root =>
      refine ⟨h.issued.remove hsound root, fun hlive => ?_⟩
      have hstays : key ∈ (d.remove root).2.forest.keys := contains_eq_true_iff.mp hlive
      have hbefore : d.contains key = true :=
        contains_eq_true_iff.mpr ((mem_keys_remove_iff hsound).mp hstays).1
      rw [Diagram.perform, bounds?, region?_eq_head?, ancestors_remove hsound hstays,
        ← region?_eq_head?]
      exact h.bounds_eq hbefore
  | setBounds placed corner =>
      have hne : key ≠ placed := fun hsame => hspared (congrArg some hsame.symm)
      exact h.setBounds hsound hne corner

/-- Along a run that adds at most 2^31 regions a region shows its bounds until it is given
others. -/
theorem Shows.run (hrecorded : Recorded d out removed) (h : d.Shows key bounds)
    {changes : List Operation} (hspared : ∀ change ∈ changes, change.placed? ≠ some key)
    (hroom : out.length + (d.handouts changes).length ≤ 0x80000000) :
    (d.run changes).Shows key bounds := by
  induction changes generalizing d out removed with
  | nil => exact h
  | cons change rest ih =>
      rw [handouts_cons, List.length_append] at hroom
      have hfirst : out.length + (d.handsOut change).length ≤ 0x80000000 := by omega
      exact ih (hrecorded.perform change hfirst)
        (h.perform hrecorded (hspared change List.mem_cons_self) hfirst)
        (fun later hlater => hspared later (List.mem_cons_of_mem _ hlater))
        (by rw [List.length_append]; omega)

end Diagram

end NestedHover
