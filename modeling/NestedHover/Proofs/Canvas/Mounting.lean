import NestedHover.Proofs.Canvas.Growth
import NestedHover.Proofs.Region.Wear

/-!
# Mounting and unmounting

Mounting a decorator adds two regions and registers the first of them.  Each addition may be
refused, and a refusal of the second one would leave the first region behind; but the second
one goes below a region that was just added, so it is never refused.

Whatever is then added within the decorator, moved there or registered there, unmounting it
brings the canvas back to what it was before mounting.

Main results:

- Theorem {lit}`Decorator.mount?_eq_mountInPlace`: mounting, step by step on the canvas.
- Theorem {lit}`Canvas.mounted_of_mount?`: what mounting adds and what it leaves alone.
- Theorem {lit}`Canvas.unmount_undoes_mount`: mounting is all or nothing, and unmounting undoes
  it.
-/

namespace NestedHover

namespace Decorator

variable {c : Canvas} {parent : Option RegionKey} {dimensions : Dimensions}
  {decorator : Decorator}

/-! ## Mounting, step by step -/

/-- Mounts a decorator on a canvas: each step that is not refused has been carried out,
whatever comes of the next one. -/
def mountInPlace (c : Canvas) (parent : Option RegionKey) (dimensions : Dimensions) :
    Option Decorator × Canvas :=
  match c.diagram.insert? parent .focusable .unplaced with
  | none => (none, c)
  | some (region, withRegion) =>
      match withRegion.insert? (some region) .decoration .unplaced with
      | none => (none, { c with diagram := withRegion })
      | some (headingRegion, diagram) =>
          (some { region, headingRegion, dimensions },
            { c with diagram, spotlight := c.spotlight.register region })

/-- Mounting answers the decorator and the canvas that the steps lead to. -/
theorem mount?_eq_mountInPlace (c : Canvas) (parent : Option RegionKey)
    (dimensions : Dimensions) :
    mount? c parent dimensions = (mountInPlace c parent dimensions).1.map
      fun decorator => (decorator, (mountInPlace c parent dimensions).2) := by
  unfold mount? mountInPlace
  cases c.diagram.insert? parent .focusable .unplaced with
  | none => rfl
  | some first =>
      dsimp only
      cases first.2.insert? (some first.1) .decoration .unplaced <;> rfl

/-- A mounting that fails stops at its first step. -/
theorem mountInPlace_of_eq_none (h : (mountInPlace c parent dimensions).1 = none) :
    (mountInPlace c parent dimensions).2 = c := by
  have hrefused : mount? c parent dimensions = none := by
    rw [mount?_eq_mountInPlace, h, Option.map_none]
  rw [mount?_eq_none_iff, ← @Diagram.insert?_eq_none_iff c.diagram parent .focusable
    .unplaced] at hrefused
  rw [mountInPlace, hrefused]

theorem mount?_of_mountInPlace (h : (mountInPlace c parent dimensions).1 = some decorator) :
    mount? c parent dimensions = some (decorator, (mountInPlace c parent dimensions).2) := by
  rw [mount?_eq_mountInPlace, h, Option.map_some]

end Decorator

namespace Canvas

variable {c next : Canvas} {parent : Option RegionKey} {dimensions : Dimensions}
  {decorator : Decorator}

/-! ## What mounting adds -/

/-- What mounting a decorator adds to a canvas, and that it leaves alone everything else. -/
structure Mounted (c : Canvas) (parent : Option RegionKey) (decorator : Decorator)
    (next : Canvas) : Prop where
  /-- The two regions of the decorator are new. -/
  region_fresh : c.diagram.contains decorator.region = false
  heading_fresh : c.diagram.contains decorator.headingRegion = false
  heading_ne : decorator.headingRegion ≠ decorator.region
  /-- They are added, and no others. -/
  keys_perm : next.diagram.forest.keys.Perm
    (decorator.headingRegion :: decorator.region :: c.diagram.forest.keys)
  region_eq : next.diagram.region? decorator.region =
    some ⟨decorator.region, .focusable, .unplaced⟩
  heading_eq : next.diagram.region? decorator.headingRegion =
    some ⟨decorator.headingRegion, .decoration, .unplaced⟩
  parent?_region : next.diagram.parent? decorator.region = parent
  parent?_heading : next.diagram.parent? decorator.headingRegion = some decorator.region
  /-- The heading is all that the region holds. -/
  children_region : next.diagram.children decorator.region = [decorator.headingRegion]
  children_heading : next.diagram.children decorator.headingRegion = []
  /-- The region comes last among its siblings. -/
  roots_eq : next.diagram.roots =
    if parent = none then c.diagram.roots ++ [decorator.region] else c.diagram.roots
  children_eq : ∀ key, c.diagram.contains key = true → next.diagram.children key =
    if parent = some key then c.diagram.children key ++ [decorator.region]
    else c.diagram.children key
  /-- All other regions are as they were. -/
  region?_eq : ∀ key, c.diagram.contains key = true →
    next.diagram.region? key = c.diagram.region? key
  parent?_eq : ∀ key, c.diagram.contains key = true →
    next.diagram.parent? key = c.diagram.parent? key
  /-- The region is registered, and nobody else's registration changes. -/
  registered_iff : decorator.region.isNull = false → ∀ key,
    next.spotlight.isRegistered key = true ↔
      key = decorator.region ∨ c.spotlight.isRegistered key = true
  highlight_eq : ∀ key, next.spotlight.highlight key = c.spotlight.highlight key
  /-- The settings, the holder of the highlight, the pending change with its deadline and the
  counters stay as they are. -/
  spotlight_eq : next.spotlight = { c.spotlight with registry := next.spotlight.registry }
  pointer_eq : next.pointer = c.pointer

/-- Mounting a decorator adds its two regions and registers the first one. -/
theorem mounted_of_mount? (h : IsAnchored c)
    (hmount : Decorator.mount? c parent dimensions = some (decorator, next)) :
    Mounted c parent decorator next := by
  rcases mount?_cases hmount with ⟨middle, hfirst, hsecond⟩
  have hnext := eq_of_mount? hmount
  have hsound : c.diagram.Sound := h.sound
  have hmiddle : middle.Sound := hsound.insert? hfirst
  have hregion : decorator.region ∉ c.diagram.forest.keys :=
    Diagram.not_mem_keys_of_insert? hsound hfirst
  have hheading : decorator.headingRegion ∉ middle.forest.keys :=
    Diagram.not_mem_keys_of_insert? hmiddle hsecond
  have hgrown : ∀ key, key ∈ middle.forest.keys ↔
      key = decorator.region ∨ key ∈ c.diagram.forest.keys := fun key =>
    Diagram.mem_keys_insert?_iff hsound hfirst
  have hne : decorator.headingRegion ≠ decorator.region := fun e =>
    hheading ((hgrown _).mpr (Or.inl e))
  have hparent : parent ≠ some decorator.region := by
    rintro rfl
    have hrefused : c.diagram.insert? (some decorator.region) .focusable .unplaced = none :=
      Diagram.insert?_eq_none_iff.mpr
        ⟨decorator.region, rfl, Diagram.contains_eq_false_iff.mpr hregion⟩
    cases hrefused.symm.trans hfirst
  have hold : ∀ key, c.diagram.contains key = true →
      key ≠ decorator.region ∧ key ≠ decorator.headingRegion := by
    intro key hlive
    rw [Diagram.contains_eq_true_iff] at hlive
    have hmember : key ∈ middle.forest.keys := (hgrown key).mpr (Or.inr hlive)
    exact ⟨fun e => hregion (e ▸ hlive), fun e => hheading (e ▸ hmember)⟩
  have hspotlight : next.spotlight = c.spotlight.register decorator.region := by rw [hnext]
  have hanchored : c.spotlight.Anchored middle := Spotlight.Anchored.insert? h hfirst
  exact {
    region_fresh := Diagram.contains_eq_false_iff.mpr hregion
    heading_fresh := Diagram.contains_eq_false_iff.mpr fun hlive =>
      hheading ((hgrown _).mpr (Or.inr hlive))
    heading_ne := hne
    keys_perm := (Diagram.perm_keys_insert? hmiddle hsecond).trans
      ((Diagram.perm_keys_insert? hsound hfirst).cons _)
    region_eq := (Diagram.region?_insert?_of_ne hmiddle hsecond hne.symm).trans
      (Diagram.region?_insert?_self hsound hfirst)
    heading_eq := Diagram.region?_insert?_self hmiddle hsecond
    parent?_region := (Diagram.parent?_insert?_of_ne hmiddle hsecond hne.symm).trans
      (Diagram.parent?_insert?_self hsound hfirst)
    parent?_heading := Diagram.parent?_insert?_self hmiddle hsecond
    children_region := by
      rw [Diagram.children_insert? hmiddle hsecond, if_pos rfl,
        Diagram.children_insert? hsound hfirst, if_neg hparent,
        Diagram.children_of_not_mem hregion, List.nil_append]
    children_heading := by
      rw [Diagram.children_insert? hmiddle hsecond, if_neg (by simpa using hne.symm),
        Diagram.children_of_not_mem hheading]
    roots_eq := by
      rw [Diagram.roots_insert? hsecond, if_neg nofun, Diagram.roots_insert? hfirst]
    children_eq := fun key hlive => by
      rw [Diagram.children_insert? hmiddle hsecond,
        if_neg (by simpa using (hold key hlive).1.symm), Diagram.children_insert? hsound hfirst]
    region?_eq := fun key hlive =>
      (Diagram.region?_insert?_of_ne hmiddle hsecond (hold key hlive).2).trans
        (Diagram.region?_insert?_of_ne hsound hfirst (hold key hlive).1)
    parent?_eq := fun key hlive =>
      (Diagram.parent?_insert?_of_ne hmiddle hsecond (hold key hlive).2).trans
        (Diagram.parent?_insert?_of_ne hsound hfirst (hold key hlive).1)
    registered_iff := by
      intro hnull key
      rw [hspotlight]
      apply Spotlight.isRegistered_register_iff hnull
      intro other hother hindex
      -- a registered key of the same slot would be live before the region was added
      exact absurd hindex
        (Diagram.index_ne_of_insert? hsound hfirst (h.live other hother))
    highlight_eq := by
      rw [hspotlight]
      exact hanchored.highlight_register ((hgrown _).mpr (Or.inl rfl))
    spotlight_eq := by
      rw [hspotlight]
      exact c.spotlight.register_eq decorator.region
    pointer_eq := by rw [hnext] }

/-- The region of a mounted decorator names a region, if there are slots for all. -/
theorem isNull_of_mount? (hsound : c.diagram.Sound) (hroomy : c.diagram.Roomy)
    (hmount : Decorator.mount? c parent dimensions = some (decorator, next))
    (hsize : next.diagram.size < RegionKey.noIndex) : decorator.region.isNull = false := by
  rcases mount?_cases hmount with ⟨middle, hfirst, hsecond⟩
  have hmiddle : middle.Sound := hsound.insert? hfirst
  have hlength := (Diagram.perm_keys_insert? hmiddle hsecond).length_eq
  rw [List.length_cons, Diagram.length_keys, Diagram.length_keys] at hlength
  have hroom : middle.Roomy := hroomy.insert? hsound hfirst (by omega)
  exact hroom.isNull_eq_false hmiddle
    ((Diagram.mem_keys_insert?_iff hsound hfirst).mpr (Or.inl rfl))

/-! ## Mounting is all or nothing, and unmounting undoes it -/

/-- Whatever run of changes has led to the diagram, and however the spotlight and the pointer
stand, as long as the registered keys are live and the spotlight names only registered ones:
mounting fails exactly below a key that is not live, and then nothing has changed.  Otherwise it
adds the two regions of the decorator, registers the first and leaves everything else as it is.
After all further calls that add, register or move regions within the decorator, unmounting it
brings back the earlier forest, with the parents, kinds, bounds and orders of the regions in it,
and the earlier spotlight; and it reports the regions that have been added since, each once.

The region of the decorator names a region at all, as long as the diagram never holds more
regions than there are slots for. -/
theorem unmount_undoes_mount (changes : List Diagram.Operation) (spotlight : Spotlight)
    (pointer : Pointer) (parent : Option RegionKey) (dimensions : Dimensions)
    (hlive : ∀ key, spotlight.isRegistered key = true →
      (({} : Diagram).run changes).contains key = true)
    (hgrounded : spotlight.Grounded) :
    let c : Canvas := ⟨({} : Diagram).run changes, spotlight, pointer⟩
    let outcome := Decorator.mountInPlace c parent dimensions
    Decorator.mount? c parent dimensions =
        outcome.1.map (fun decorator => (decorator, outcome.2)) ∧
      (outcome.1 = none ↔ ∃ key, parent = some key ∧ c.diagram.contains key = false) ∧
      (outcome.1 = none → outcome.2 = c) ∧
      ∀ decorator, outcome.1 = some decorator →
        Mounted c parent decorator outcome.2 ∧
          (Along Diagram.perform Diagram.Fits {} changes →
            outcome.2.diagram.size < RegionKey.noIndex → decorator.region.isNull = false) ∧
          ∀ calls, Along serve (Confined decorator.region) outcome.2 calls →
            ∀ held : Decorator, held.region = decorator.region →
              let unmounted := held.unmount (calls.foldl serve outcome.2)
              unmounted.2.diagram.forest = c.diagram.forest ∧
                unmounted.2.spotlight = c.spotlight ∧ unmounted.2.pointer = c.pointer ∧
                unmounted.1.Perm (decorator.region :: decorator.headingRegion ::
                  gathered serve addedBy outcome.2 calls) ∧
                unmounted.1.Nodup := by
  intro c outcome
  have hanchored : IsAnchored c :=
    ⟨Diagram.sound_run changes, fun key hkey => Diagram.contains_eq_true_iff.mp (hlive key hkey),
      hgrounded⟩
  refine ⟨Decorator.mount?_eq_mountInPlace c parent dimensions, ?_,
    Decorator.mountInPlace_of_eq_none, ?_⟩
  · rw [← Decorator.mount?_eq_none_iff, Decorator.mount?_eq_mountInPlace, Option.map_eq_none_iff]
  · intro decorator hmounted
    have hmount := Decorator.mount?_of_mountInPlace hmounted
    refine ⟨mounted_of_mount? hanchored hmount, ?_, ?_⟩
    · intro hfit hsize
      have hroomy : c.diagram.Roomy :=
        Diagram.Roomy.run Diagram.sound_empty Diagram.roomy_empty hfit
      exact isNull_of_mount? hanchored.sound hroomy hmount hsize
    · intro calls hconfined held hheld
      have hgrown : Grown c held.region (decorator.region :: decorator.headingRegion ::
          gathered serve addedBy outcome.2 calls) (calls.foldl serve outcome.2) := by
        rw [hheld]
        exact (Grown.of_mount? hanchored hmount).foldl hconfined
      exact hgrown.unmount hanchored

/-- A decorator is mounted in a slot that is used again, inside a region that is about to lose
the highlight, gets another decorator with a region of its own, and is laid out.  Unmounting it
takes off all five regions and leaves the highlight as it was. -/
theorem unmount_undoes_nested_mount :
    let outer : RegionKey := .fresh 1
    let changes : List Diagram.Operation :=
      [.insert none .focusable ⟨0, 0, 300, 300⟩,
        .insert (some outer) .decoration ⟨0, 0, 300, 20⟩,
        .insert (some outer) .focusable .unplaced, .remove (.fresh 3)]
    let spotlight := ({} : Spotlight).run
      [.register outer, .activate outer, .deactivateLater outer 10]
    let decorator : Decorator :=
      { region := (RegionKey.fresh 3).renewed, headingRegion := .fresh 4 }
    let calls : List Call :=
      [.operate (.mount (some decorator.region) {}),
        .operate (.insert (some (.fresh 5)) .focusable ⟨40, 40, 20, 20⟩),
        .operate (.arrange decorator ⟨10, 30, 200, 100⟩ ⟨20, 40, 180, 80⟩ true),
        .request (.register decorator.headingRegion)]
    let c : Canvas := ⟨({} : Diagram).run changes, spotlight, {}⟩
    let outcome := Decorator.mountInPlace c (some outer) {}
    let later := calls.foldl serve outcome.2
    outcome.1 = some decorator ∧
      (spotlight.active = some outer ∧ spotlight.pending? = some (.deactivate outer)) ∧
      later.diagram.forest.keys =
        [outer, .fresh 2, decorator.region, .fresh 4, .fresh 5, .fresh 6, .fresh 7] ∧
      (decorator.unmount later).2.diagram.forest = c.diagram.forest ∧
      (decorator.unmount later).2.spotlight = spotlight ∧
      (decorator.unmount later).1.Perm
        [decorator.region, .fresh 4, .fresh 5, .fresh 6, .fresh 7] := by
  intro outer changes spotlight decorator calls c outcome later
  have hactive : spotlight.active = some outer := by decide
  have hpending : spotlight.pending? = some (.deactivate outer) := by decide
  have hregistered : spotlight.isRegistered outer = true := by decide
  have hlive : ∀ key, spotlight.isRegistered key = true →
      (({} : Diagram).run changes).contains key = true := by
    intro key hkey
    have hall : spotlight.registered = [outer] := by decide
    have hmem : key ∈ spotlight.registered := Registry.mem_keys_iff.mpr hkey
    rw [hall, List.mem_singleton] at hmem
    rw [hmem]
    decide
  have hgrounded : spotlight.Grounded := by
    constructor
    · intro key hholder
      cases hactive.symm.trans hholder
      exact hregistered
    · intro pending hwaiting
      cases hpending.symm.trans hwaiting
      exact hregistered
  have hmounted : outcome.1 = some decorator := by decide
  obtain ⟨-, -, -, hafter⟩ :=
    unmount_undoes_mount changes spotlight {} (some outer) {} hlive hgrounded
  obtain ⟨-, -, hundone⟩ := hafter decorator hmounted
  obtain ⟨hforest, hspotlight, -, hreported, -⟩ :=
    hundone calls (by decide) decorator rfl
  have hadded : decorator.region :: decorator.headingRegion ::
      gathered serve addedBy outcome.2 calls =
        [decorator.region, .fresh 4, .fresh 5, .fresh 6, .fresh 7] := by decide
  rw [hadded] at hreported
  have hkeys : later.diagram.forest.keys =
      [outer, .fresh 2, decorator.region, .fresh 4, .fresh 5, .fresh 6, .fresh 7] := by decide
  refine ⟨hmounted, ⟨hactive, hpending⟩, hkeys, ?_⟩
  dsimp only [later, outcome, c]
  exact ⟨hforest, hspotlight, hreported⟩

end Canvas

end NestedHover
