import NestedHover.Proofs.Region.Subtrees

/-!
# The topmost region at a point

Regions are painted in one order: the roots from left to right, each region before its
children, and those from left to right.  Whatever is painted later lies on top.  A point hits
the last region of that order that covers it.  The search for it goes the other way, from the
last sibling to the first and below each region before the region itself, and stops at the
first one that covers the point.

A region covers the points of its own bounds and no others.  Whether its parent or its
children cover a point as well does not matter: a child may reach beyond its parent.

Main results:

- Theorem {lit}`Forest.topmost?_eq_find?_reverse`: the search through a forest is a search
  through its paint order from the end.
- Theorem {lit}`Diagram.hit?_eq_some_iff`: a point hits the last region in paint order that
  covers it.
- Theorem {lit}`Diagram.hit?_eq_none_iff`: a point hits nothing exactly when no live region
  covers it.
- Theorem {lit}`Diagram.hits_last_covering`: both, after every run of changes, with the paint
  order given by the lists of roots and children.
-/

namespace NestedHover

/-! ## The search through a forest -/

namespace Forest

variable {f : Forest} {p : Point} {r : Region}

/-- The search for the topmost region goes through the paint order from the end. -/
theorem topmost?_eq_find?_reverse (p : Point) (f : Forest) :
    f.topmost? p = f.regions.reverse.find? fun r => r.bounds.contains p := by
  induction f with
  | nil => rfl
  | tree root children siblings ihc ihs =>
      have hroot : (if root.bounds.contains p then some root else none) =
          [root].find? fun r => r.bounds.contains p := by
        cases h : root.bounds.contains p <;> simp [h]
      have hreverse : (tree root children siblings).regions.reverse =
          siblings.regions.reverse ++ (children.regions.reverse ++ [root]) := by
        simp [regions]
      rw [topmost?, hreverse, List.find?_append, List.find?_append, ihs, ihc, hroot]

/-- The topmost region at a point covers it, and nothing painted later does. -/
theorem topmost?_eq_some_iff :
    f.topmost? p = some r ↔
      r.bounds.contains p = true ∧ ∃ before after, f.regions = before ++ r :: after ∧
        ∀ later ∈ after, later.bounds.contains p = false := by
  rw [topmost?_eq_find?_reverse, List.find?_eq_some_iff_append]
  apply and_congr_right
  intro _
  constructor
  · rintro ⟨front, rear, hsplit, hfront⟩
    refine ⟨rear.reverse, front.reverse, ?_, ?_⟩
    · rw [← List.reverse_reverse f.regions, hsplit]
      simp
    · intro later hlater
      simpa using hfront later (List.mem_reverse.mp hlater)
  · rintro ⟨before, after, hsplit, hafter⟩
    refine ⟨after.reverse, before.reverse, by simp [hsplit], ?_⟩
    intro later hlater
    simp [hafter later (List.mem_reverse.mp hlater)]

/-- There is no topmost region exactly where no region covers the point. -/
theorem topmost?_eq_none_iff :
    f.topmost? p = none ↔ ∀ r ∈ f.regions, r.bounds.contains p = false := by
  rw [topmost?_eq_find?_reverse, List.find?_eq_none]
  simp

end Forest

/-! ## Hits -/

namespace Diagram

variable {d : Diagram} {key : RegionKey} {p : Point}

/-- Whether a region is live and its bounds contain a point. -/
def covers (d : Diagram) (key : RegionKey) (p : Point) : Bool :=
  (d.bounds? key).any fun bounds => bounds.contains p

/-- A region of the forest covers what its bounds contain. -/
theorem covers_key (hsound : d.Sound) {r : Region} (hr : r ∈ d.forest.regions) (p : Point) :
    d.covers r.key p = r.bounds.contains p := by
  simp [covers, bounds?, region?_of_mem_regions hsound hr]

/-- A point hits the last region in paint order that covers it. -/
theorem hit?_eq_some_iff (hsound : d.Sound) :
    d.hit? p = some key ↔
      d.covers key p = true ∧ ∃ before after, d.forest.keys = before ++ key :: after ∧
        ∀ later ∈ after, d.covers later p = false := by
  rw [hit?, Option.map_eq_some_iff]
  constructor
  · rintro ⟨r, htop, rfl⟩
    rcases Forest.topmost?_eq_some_iff.mp htop with ⟨hcovers, before, after, hsplit, hafter⟩
    have hr : r ∈ d.forest.regions := Forest.mem_regions_of_topmost? htop
    refine ⟨(covers_key hsound hr p).trans hcovers, before.map Region.key,
      after.map Region.key, by simp [Forest.keys, hsplit], ?_⟩
    intro later hlater
    rcases List.mem_map.mp hlater with ⟨q, hq, rfl⟩
    rw [covers_key hsound (by simp [hsplit, hq]), hafter q hq]
  · rintro ⟨hcovers, before, after, hsplit, hafter⟩
    -- the split of the keys comes from one of the regions
    rcases List.map_eq_append_iff.mp hsplit with ⟨front, rest, hregions, -, hrest⟩
    rcases List.map_eq_cons_iff.mp hrest with ⟨r, rear, rfl, rfl, rfl⟩
    have hr : r ∈ d.forest.regions := by simp [hregions]
    refine ⟨r, Forest.topmost?_eq_some_iff.mpr ⟨?_, front, rear, hregions, ?_⟩, rfl⟩
    · rwa [covers_key hsound hr] at hcovers
    · intro later hlater
      rw [← covers_key hsound (by simp [hregions, hlater])]
      exact hafter later.key (List.mem_map_of_mem hlater)

/-- A point hits nothing exactly when no live region covers it. -/
theorem hit?_eq_none_iff (hsound : d.Sound) :
    d.hit? p = none ↔ ∀ key, d.contains key = true → d.covers key p = false := by
  rw [hit?, Option.map_eq_none_iff, Forest.topmost?_eq_none_iff]
  constructor
  · intro hnone key hlive
    rcases List.mem_map.mp (contains_eq_true_iff.mp hlive) with ⟨r, hr, rfl⟩
    rw [covers_key hsound hr, hnone r hr]
  · intro hnone r hr
    rw [← covers_key hsound hr]
    exact hnone r.key (contains_eq_true_iff.mpr (Forest.key_mem_keys hr))

/-- After every run of changes and at every point, be its coordinates undefined or infinite:
the walk down from the roots visits the live regions in one order only, the point hits the
last region of that order that covers it, whichever others it lies in or around, and it hits
nothing exactly when no live region covers it. -/
theorem hits_last_covering (changes : List Operation) (p : Point) :
    let d := ({} : Diagram).run changes
    let painted := d.forest.keys
    (∀ visited, d.Tour d.roots visited ↔ visited = painted) ∧
      (∀ key, d.hit? p = some key ↔
        d.covers key p = true ∧ ∃ before after, painted = before ++ key :: after ∧
          ∀ later ∈ after, d.covers later p = false) ∧
      (d.hit? p = none ↔ ∀ key, d.contains key = true → d.covers key p = false) := by
  intro d painted
  have hsound : d.Sound := sound_run changes
  exact ⟨fun _ => tour_iff hsound, fun _ => hit?_eq_some_iff hsound, hit?_eq_none_iff hsound⟩

/-- Two regions reach beyond their parent.  The point lies in both of them and not in the
parent, and it hits the one that is painted later, although a still later root is there.  An
undefined position hits nothing. -/
theorem hits_overflowing_child :
    let first := RegionKey.fresh 1
    let second := RegionKey.fresh 2
    let third := RegionKey.fresh 3
    let fourth := RegionKey.fresh 4
    let d := ({} : Diagram).run
      [.insert none .focusable ⟨0, 0, 100, 100⟩,
        .insert (some first) .decoration ⟨80, 0, 60, 20⟩,
        .insert (some second) .focusable ⟨90, 0, 40, 40⟩,
        .insert none .focusable ⟨300, 0, 100, 100⟩]
    (d.Tour d.roots [first, second, third, fourth] ∧ d.parent? second = some first) ∧
      (d.covers first ⟨120, 10⟩ = false ∧ d.covers second ⟨120, 10⟩ = true) ∧
      d.hit? ⟨120, 10⟩ = some third ∧ d.hit? ⟨0 / 0, 10⟩ = none := by
  intro first second third fourth d
  have hpainted : d.forest.keys = [first, second, third, fourth] := by decide
  have hlater : ∀ later ∈ [fourth], d.covers later ⟨120, 10⟩ = false := by decide
  have hundefined : ∀ key ∈ d.forest.keys, d.covers key ⟨0 / 0, 10⟩ = false := by decide
  obtain ⟨htour, hhit, -⟩ := hits_last_covering _ ⟨120, 10⟩
  obtain ⟨-, -, hnone⟩ := hits_last_covering _ ⟨0 / 0, 10⟩
  refine ⟨⟨(htour _).mpr hpainted.symm, by decide⟩, ⟨by decide, by decide⟩, ?_, ?_⟩
  · exact (hhit third).mpr ⟨by decide, [first, second], [fourth], hpainted, hlater⟩
  · exact hnone.mpr fun key hlive => hundefined key (contains_eq_true_iff.mp hlive)

end Diagram

end NestedHover
