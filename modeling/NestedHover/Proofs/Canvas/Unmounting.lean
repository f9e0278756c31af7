import NestedHover.Proofs.Canvas.Operations
import NestedHover.Proofs.Region.Freshness
import NestedHover.Proofs.Spotlight.Effects

/-!
# Unmounted decorators

Unmounting a decorator removes its region with all below it and deregisters what was
removed.  Whoever still holds the decorator then holds two keys that are not live, and
laying it out changes nothing.

Two decorators may be unmounted in either order, also when one lies inside the other, so
that the second key is not live any more in one order and still is in the other.  Both
orders leave the same regions, the same spotlight and the same pointer, and report the same
keys.  Only the order in which the free slots are used again may differ.

Main results:

- Theorem {lit}`Diagram.alike_remove_comm`: two regions are removed in either order.
- Theorem {lit}`Spotlight.deregister_comm`: two regions are deregistered in either order.
- Theorem {lit}`Canvas.unmount_comm`: two decorators are unmounted in either order.
- Theorem {lit}`Canvas.keys_never_alias`: along a run that adds at most 2^31 regions no key is
  handed out twice, a removed key stays good for nothing, and laying out a decorator whose
  region was removed changes nothing.
-/

namespace NestedHover

/-! ## Removing in either order -/

/-- Two regions are pruned in either order. -/
theorem Forest.prune_comm (first second : RegionKey) (f : Forest) :
    (f.prune first).prune second = (f.prune second).prune first := by
  induction f with
  | nil => rfl
  | tree root children siblings ihc ihs =>
      by_cases hfirst : root.key = first
      · subst hfirst
        by_cases hsecond : root.key = second <;> simp [Forest.prune, hsecond]
      · by_cases hsecond : root.key = second
        · subst hsecond
          simp [Forest.prune, hfirst]
        · simp [Forest.prune, hfirst, hsecond, ihc, ihs]

namespace Diagram

variable {d next : Diagram} {first second key : RegionKey}

/-- The same regions, linked in the same way; the free slots may come in another order. -/
structure Alike (d next : Diagram) : Prop where
  forest_eq : next.forest = d.forest
  opened_eq : next.pool.opened = d.pool.opened
  returned_perm : next.pool.returned.Perm d.pool.returned

theorem pool_remove (d : Diagram) (key : RegionKey) :
    (d.remove key).2.pool = d.pool.giveBack (d.remove key).1 := by
  unfold remove
  split <;> rfl

/-- The keys that removing one region and then another one reports. -/
def removedByBoth (d : Diagram) (first second : RegionKey) : List RegionKey :=
  (d.remove first).1 ++ ((d.remove first).2.remove second).1

/-- What is left after removing two regions, with what was reported, are all live regions. -/
theorem perm_keys_removedByBoth (hsound : d.Sound) (first second : RegionKey) :
    d.forest.keys.Perm
      (d.removedByBoth first second ++ ((d.remove first).2.remove second).2.forest.keys) := by
  rw [removedByBoth, List.append_assoc]
  exact (perm_keys_remove hsound first).trans
    ((perm_keys_remove (hsound.remove first) second).append_left _)

theorem forest_remove_comm (d : Diagram) (first second : RegionKey) :
    ((d.remove first).2.remove second).2.forest =
      ((d.remove second).2.remove first).2.forest := by
  rw [forest_remove, forest_remove, forest_remove, forest_remove, Forest.prune_comm]

/-- Both orders report the same keys. -/
theorem removedByBoth_perm (hsound : d.Sound) (first second : RegionKey) :
    (d.removedByBoth first second).Perm (d.removedByBoth second first) := by
  have hboth := (perm_keys_removedByBoth hsound first second).symm.trans
    (perm_keys_removedByBoth hsound second first)
  rw [forest_remove_comm] at hboth
  exact (List.perm_append_right_iff _).mp hboth

/-- No key is reported twice. -/
theorem nodup_removedByBoth (hsound : d.Sound) (first second : RegionKey) :
    (d.removedByBoth first second).Nodup := by
  have hnodup := (perm_keys_removedByBoth hsound first second).nodup_iff.mp hsound.nodup_keys
  exact (List.nodup_append'.mp hnodup).1

/-- The pool after removing two regions. -/
theorem pool_remove_remove (d : Diagram) (first second : RegionKey) :
    ((d.remove first).2.remove second).2.pool =
      d.pool.giveBack (d.removedByBoth first second) := by
  rw [pool_remove, pool_remove, removedByBoth]
  simp [KeyPool.giveBack]

/-- Two regions are removed in either order. -/
theorem alike_remove_comm (hsound : d.Sound) (first second : RegionKey) :
    ((d.remove first).2.remove second).2.Alike ((d.remove second).2.remove first).2 where
  forest_eq := forest_remove_comm d second first
  opened_eq := by rw [pool_remove_remove, pool_remove_remove]; rfl
  returned_perm := by
    rw [pool_remove_remove, pool_remove_remove]
    have hreversed : (d.removedByBoth second first).reverse.Perm
        (d.removedByBoth first second).reverse :=
      (List.reverse_perm _).trans
        ((removedByBoth_perm hsound second first).trans (List.reverse_perm _).symm)
    exact hreversed.append_right d.pool.returned

/-- Removing a region within one that has been removed reports nothing and changes nothing. -/
theorem remove_of_isWithin (hsound : d.Sound) (h : d.isWithin second first = true) :
    (d.remove first).2.remove second = ([], (d.remove first).2) := by
  apply remove_of_not_mem
  rw [contains_eq_false_iff, mem_keys_remove_iff hsound]
  exact fun hlive => hlive.2 ((mem_remove_iff hsound).mpr h)

end Diagram

/-! ## Deregistering in either order -/

namespace Spotlight

/-- Two regions are deregistered in either order. -/
theorem deregister_comm (s : Spotlight) (first second : RegionKey) :
    (s.deregister first).deregister second = (s.deregister second).deregister first := by
  simp only [deregister, Alarm.snd_cancelIf, Registry.erase, List.filter_filter,
    Option.filter_filter]
  simp only [Bool.and_comm]

instance : RightCommutative deregister where
  right_comm := deregister_comm

end Spotlight

namespace Decorator

/-- The changes to the regions that mounting a decorator makes. -/
def additions (decorator : Decorator) (parent : Option RegionKey) : List Diagram.Operation :=
  [.insert parent .focusable .unplaced,
    .insert (some decorator.region) .decoration .unplaced]

/-- The decorator has the regions of one that was mounted in the course of a run of changes;
it may have been relabelled and laid out since then. -/
inductive MountedDuring (decorator : Decorator) : List Diagram.Operation → Prop where
  | intro {c next : Canvas} {mounted : Decorator} {parent : Option RegionKey}
      {dimensions : Dimensions} {earlier later : List Diagram.Operation}
      (hbefore : c.diagram = ({} : Diagram).run earlier)
      (hmount : mount? c parent dimensions = some (mounted, next))
      (hregion : decorator.region = mounted.region)
      (hheading : decorator.headingRegion = mounted.headingRegion) :
      MountedDuring decorator (earlier ++ (mounted.additions parent ++ later))

end Decorator

namespace Canvas

variable {c next : Canvas} {decorator : Decorator} {parent : Option RegionKey}
  {dimensions : Dimensions}

/-! ## Unmounting in either order -/

/-- The same regions, spotlight and pointer; the free slots may come in another order. -/
structure Alike (c next : Canvas) : Prop where
  diagram_alike : c.diagram.Alike next.diagram
  spotlight_eq : next.spotlight = c.spotlight
  pointer_eq : next.pointer = c.pointer

/-- After unmounting two decorators everything is deregistered that was removed. -/
theorem spotlight_unmount_unmount (first second : Decorator) (c : Canvas) :
    (second.unmount (first.unmount c).2).2.spotlight =
      (c.diagram.removedByBoth first.region second.region).foldl Spotlight.deregister
        c.spotlight := by
  rw [Diagram.removedByBoth, List.foldl_append]
  rfl

/-- Whatever run of changes has led to the diagram, and however the spotlight and the pointer
stand: unmounting two decorators in either order leaves the same canvas, up to the order in
which free slots are used again, and both orders report the same keys, each once.  If the
second decorator is within the first one, unmounting it after the first one reports nothing
and changes nothing. -/
theorem unmount_comm (changes : List Diagram.Operation) (spotlight : Spotlight)
    (pointer : Pointer) (first second : Decorator) :
    let c : Canvas := ⟨({} : Diagram).run changes, spotlight, pointer⟩
    let afterFirst := first.unmount c
    let afterBoth := second.unmount afterFirst.2
    let afterSecond := second.unmount c
    let otherWay := first.unmount afterSecond.2
    afterBoth.2.Alike otherWay.2 ∧
      (afterFirst.1 ++ afterBoth.1).Perm (afterSecond.1 ++ otherWay.1) ∧
      (afterFirst.1 ++ afterBoth.1).Nodup ∧
      (c.diagram.isWithin second.region first.region = true →
        afterBoth = ([], afterFirst.2)) := by
  intro c afterFirst afterBoth afterSecond otherWay
  have hsound : c.diagram.Sound := Diagram.sound_run changes
  have hperm := Diagram.removedByBoth_perm hsound first.region second.region
  refine ⟨⟨Diagram.alike_remove_comm hsound _ _, ?_, rfl⟩, hperm,
    Diagram.nodup_removedByBoth hsound _ _, fun hwithin => ?_⟩
  · rw [spotlight_unmount_unmount, spotlight_unmount_unmount]
    exact hperm.symm.foldl_eq spotlight
  · have hgone := Diagram.remove_of_isWithin hsound hwithin
    simp [afterBoth, afterFirst, Decorator.unmount, hgone]

/-- A decorator inside another one is about to hand the highlight over to it.  Unmounting the
outer one takes both; unmounting the inner one first takes them one after the other and ends
with the same regions and the same spotlight. -/
theorem unmount_comm_nested :
    let outer : Decorator := { region := .fresh 1, headingRegion := .fresh 2 }
    let inner : Decorator := { region := .fresh 3, headingRegion := .fresh 4 }
    let changes := outer.additions none ++ inner.additions (some outer.region) ++
      [.insert none .focusable ⟨300, 0, 50, 50⟩]
    let spotlight := ({} : Spotlight).run
      [.register outer.region, .register inner.region, .register (.fresh 5),
        .activate inner.region, .activateLater outer.region 10]
    let c : Canvas := ⟨({} : Diagram).run changes, spotlight, {}⟩
    let outerFirst := inner.unmount (outer.unmount c).2
    let innerFirst := outer.unmount (inner.unmount c).2
    (spotlight.active = some inner.region ∧ spotlight.pending? = some (.activate outer.region)) ∧
      c.diagram.isWithin inner.region outer.region = true ∧
      ((outer.unmount c).1 = [.fresh 1, .fresh 2, .fresh 3, .fresh 4] ∧
        outerFirst = ([], (outer.unmount c).2)) ∧
      ((inner.unmount c).1 = [.fresh 3, .fresh 4] ∧ innerFirst.1 = [.fresh 1, .fresh 2]) ∧
      innerFirst.2.diagram.forest.keys = [.fresh 5] ∧
      innerFirst.2.spotlight = outerFirst.2.spotlight := by
  intro outer inner changes spotlight c outerFirst innerFirst
  have hwithin : c.diagram.isWithin inner.region outer.region = true := by decide
  have halike : outerFirst.2.Alike innerFirst.2 :=
    (unmount_comm changes spotlight {} outer inner).1
  have hnothing : outerFirst = ([], (outer.unmount c).2) :=
    (unmount_comm changes spotlight {} outer inner).2.2.2 hwithin
  exact ⟨by decide, hwithin, ⟨by decide, hnothing⟩, by decide, by decide, halike.spotlight_eq⟩

/-! ## Laying out after unmounting -/

theorem run_additions (h : Decorator.mount? c parent dimensions = some (decorator, next)) :
    c.diagram.run (decorator.additions parent) = next.diagram := by
  rcases mount?_cases h with ⟨middle, hfirst, hsecond⟩
  simp [Diagram.run, Decorator.additions, Diagram.perform, hfirst, hsecond]

theorem parent?_headingRegion (hsound : c.diagram.Sound)
    (h : Decorator.mount? c parent dimensions = some (decorator, next)) :
    next.diagram.parent? decorator.headingRegion = some decorator.region := by
  rcases mount?_cases h with ⟨middle, hfirst, hsecond⟩
  have hmiddle : middle.Sound := hsound.insert? hfirst
  rw [Diagram.parent?_eq_some_iff (hmiddle.insert? hsecond),
    Diagram.children_insert? hmiddle hsecond, if_pos rfl]
  exact List.mem_append_right _ (List.mem_singleton_self _)

/-- Laying out a decorator whose regions are not live changes nothing. -/
theorem arrange_of_not_mem (hregion : decorator.region ∉ c.diagram.forest.keys)
    (hheading : decorator.headingRegion ∉ c.diagram.forest.keys) (box statement : Rectangle)
    (hasBreakpoint : Bool) : (decorator.arrange c box statement hasBreakpoint).2 = c := by
  rcases arrange_eq_place decorator c box statement hasBreakpoint with ⟨bounds, heading, harrange⟩
  rw [harrange, place, place, (Diagram.gone_of_not_mem hregion).setBounds_eq,
    (Diagram.gone_of_not_mem hheading).setBounds_eq]

/-- After a run in which a decorator was mounted its heading is dead with its region. -/
theorem headingRegion_not_mem {changes : List Diagram.Operation}
    (hroom : (({} : Diagram).handouts changes).length ≤ 0x80000000)
    (hmounted : decorator.MountedDuring changes)
    (hregion : decorator.region ∉ (({} : Diagram).run changes).forest.keys) :
    decorator.headingRegion ∉ (({} : Diagram).run changes).forest.keys := by
  rcases hmounted with @⟨c, next, mounted, parent, dimensions, earlier, later, hbefore, hmount,
    hsame, hheading⟩
  have hsound : c.diagram.Sound := hbefore ▸ Diagram.sound_run earlier
  have hnext : ({} : Diagram).run (earlier ++ mounted.additions parent) = next.diagram := by
    rw [Diagram.run_append, ← hbefore, run_additions hmount]
  have hbelow : next.diagram.Below decorator.region decorator.headingRegion := by
    rw [hsame, hheading]
    exact Diagram.below_of_parent? (parent?_headingRegion hsound hmount)
  rw [← List.append_assoc] at hroom hregion ⊢
  rw [Diagram.handouts_append, List.length_append, hnext] at hroom
  rw [Diagram.run_append, hnext] at hregion ⊢
  have hfirst : (({} : Diagram).handouts (earlier ++ mounted.additions parent)).length ≤
      0x80000000 := by omega
  have hrecorded := Diagram.recorded_run hfirst
  rw [hnext] at hrecorded
  exact (hbelow.run hrecorded hroom).dead (hrecorded.run hroom).sound hregion

/-- Along every run of changes that adds at most 2^31 regions, whatever keys the changes are
given, no key is handed out twice.  A key that was reported as removed stays good for nothing,
whoever has taken over its slot, and laying out a decorator whose region was reported changes
nothing. -/
theorem keys_never_alias {changes : List Diagram.Operation}
    (hroom : (({} : Diagram).handouts changes).length ≤ 0x80000000) :
    let d := ({} : Diagram).run changes
    (({} : Diagram).handouts changes).Nodup ∧
      (∀ key ∈ ({} : Diagram).removals changes, d.Gone key) ∧
      ∀ decorator : Decorator, decorator.MountedDuring changes →
        decorator.region ∈ ({} : Diagram).removals changes →
        ∀ (spotlight : Spotlight) (pointer : Pointer) (box statement : Rectangle)
          (hasBreakpoint : Bool),
          (decorator.arrange ⟨d, spotlight, pointer⟩ box statement hasBreakpoint).2 =
            ⟨d, spotlight, pointer⟩ := by
  intro d
  have hrecorded := Diagram.recorded_run hroom
  refine ⟨hrecorded.nodup, fun key hkey => Diagram.gone_of_not_mem (hrecorded.dead key hkey), ?_⟩
  intro decorator hmounted hreported spotlight pointer box statement hasBreakpoint
  have hregion := hrecorded.dead decorator.region hreported
  exact arrange_of_not_mem hregion (headingRegion_not_mem hroom hmounted hregion) box statement
    hasBreakpoint

/-- A decorator is unmounted and another region takes over the slot of its heading.  The key
of the heading answers nothing, and laying the decorator out moves nothing, least of all the
region in the slot of its heading. -/
theorem keys_never_alias_after_reuse :
    let decorator : Decorator := { region := .fresh 1, headingRegion := .fresh 2 }
    let later : RegionKey := decorator.headingRegion.renewed
    let changes := decorator.additions none ++
      [.remove decorator.region, .insert none .focusable ⟨0, 0, 50, 50⟩]
    let d := ({} : Diagram).run changes
    let c : Canvas := ⟨d, {}, {}⟩
    ({} : Diagram).handouts changes = [decorator.region, decorator.headingRegion, later] ∧
      (({} : Diagram).handouts changes).length ≤ 0x80000000 ∧
      decorator.headingRegion ∈ ({} : Diagram).removals changes ∧
      decorator.region ∈ ({} : Diagram).removals changes ∧
      decorator.MountedDuring changes ∧
      (d.Gone decorator.headingRegion ∧ d.hit? ⟨10, 10⟩ = some later) ∧
      (decorator.arrange c ⟨0, 0, 40, 40⟩ ⟨0, 0, 40, 40⟩ true).2 = c := by
  intro decorator later changes d c
  have hhandouts : ({} : Diagram).handouts changes =
      [decorator.region, decorator.headingRegion, later] := by decide
  have hroom : (({} : Diagram).handouts changes).length ≤ 0x80000000 := by
    rw [hhandouts]
    decide
  have hheading : decorator.headingRegion ∈ ({} : Diagram).removals changes := by decide
  have hregion : decorator.region ∈ ({} : Diagram).removals changes := by decide
  have hbefore : ({} : Canvas).diagram = ({} : Diagram).run [] := rfl
  have hmount : Decorator.mount? {} none {} =
      some (decorator, ⟨({} : Diagram).run (decorator.additions none),
        ({} : Spotlight).register decorator.region, {}⟩) := by decide
  have hmounted : decorator.MountedDuring changes := .intro hbefore hmount rfl rfl
  obtain ⟨-, hgone, harrange⟩ := keys_never_alias hroom
  exact ⟨hhandouts, hroom, hheading, hregion, hmounted, ⟨hgone _ hheading, by decide⟩,
    harrange decorator hmounted hregion {} {} _ _ true⟩

end Canvas

end NestedHover
