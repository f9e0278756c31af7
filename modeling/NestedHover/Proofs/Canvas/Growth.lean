import NestedHover.Proofs.Canvas.References
import NestedHover.Proofs.Region.Additions
import NestedHover.Proofs.Region.Freshness
import NestedHover.Proofs.Spotlight.Registrations

/-!
# Growing within a region

A canvas on which regions are added, registered and moved only within one region, itself an
added one, stays what it was but for what hangs on that region.  So cutting the region off and
deregistering what was cut off brings the canvas back: the same forest of regions and the same
spotlight.  The only trace is in the pool, where the slots that were opened wait for reuse.

Main results:

- Theorem {lit}`Canvas.Grown.of_mount?`: a mounted decorator is the beginning of what grows
  within its region.
- Theorem {lit}`Canvas.Grown.serve`: a call confined to a region leaves the canvas as it was
  before, but for what hangs on that region.
- Theorem {lit}`Canvas.Grown.unmount`: unmounting takes what hangs on the region off again.
-/

namespace NestedHover

namespace Canvas

variable {c start next : Canvas} {parent : Option RegionKey} {dimensions : Dimensions}
  {decorator : Decorator} {region key : RegionKey} {added : List RegionKey} {call : Call}

/-! ## Growing within a region -/

/-- What a canvas has in common with an earlier one, if since then only the given keys have
been added, all of them within the given region. -/
structure Grown (start : Canvas) (region : RegionKey) (added : List RegionKey)
    (c : Canvas) : Prop where
  anchored : IsAnchored c
  forest_eq : c.diagram.forest.prune region = start.diagram.forest
  keys_perm : c.diagram.forest.keys.Perm (added ++ start.diagram.forest.keys)
  spotlight_eq : c.spotlight = { start.spotlight with registry := c.spotlight.registry }
  registered_eq : ∀ key ∈ start.diagram.forest.keys,
    c.spotlight.isRegistered key = start.spotlight.isRegistered key
  highlight_eq : ∀ key, c.spotlight.highlight key = start.spotlight.highlight key
  pointer_eq : c.pointer = start.pointer

theorem Grown.mem_keys (h : Grown start region added c)
    (hkey : key ∈ start.diagram.forest.keys) : key ∈ c.diagram.forest.keys :=
  h.keys_perm.mem_iff.mpr (List.mem_append_right added hkey)

/-- Who is inside the region has been added since. -/
theorem Grown.not_mem_of_isInside (h : Grown start region added c)
    (hinside : c.diagram.isInside region key = true) : key ∉ start.diagram.forest.keys := by
  rw [← h.forest_eq]
  exact Diagram.not_mem_prune_of_isInside h.anchored.sound hinside

/-- A region that is added anywhere is the beginning. -/
theorem Grown.begin (h : IsAnchored start) {kind : RegionKind} {bounds : Rectangle}
    {diagram : Diagram}
    (hinsert : start.diagram.insert? parent kind bounds = some (region, diagram)) :
    Grown start region [region] { start with diagram } where
  anchored := Spotlight.Anchored.insert? h hinsert
  forest_eq := Diagram.prune_insert?_self h.sound hinsert
  keys_perm := Diagram.perm_keys_insert? h.sound hinsert
  spotlight_eq := rfl
  registered_eq _ _ := rfl
  highlight_eq _ := rfl
  pointer_eq := rfl

/-- Another region is added below one that is not among the earlier ones. -/
theorem Grown.insert? (h : Grown start region added c) {parent : RegionKey}
    {kind : RegionKind} {bounds : Rectangle} {diagram : Diagram}
    (hparent : parent ∉ start.diagram.forest.keys)
    (hinsert : c.diagram.insert? (some parent) kind bounds = some (key, diagram)) :
    Grown start region (added ++ [key]) { c with diagram } where
  anchored := Spotlight.Anchored.insert? h.anchored hinsert
  forest_eq := by
    rw [← h.forest_eq] at hparent ⊢
    exact Diagram.prune_insert? hinsert hparent
  keys_perm := by
    rw [List.append_assoc]
    exact (Diagram.perm_keys_insert? h.anchored.sound hinsert).trans
      ((h.keys_perm.cons key).trans List.perm_middle.symm)
  spotlight_eq := h.spotlight_eq
  registered_eq := h.registered_eq
  highlight_eq := h.highlight_eq
  pointer_eq := h.pointer_eq

/-- A region that is not among the earlier ones gets new bounds. -/
theorem Grown.place (h : Grown start region added c) (hkey : key ∉ start.diagram.forest.keys)
    (bounds : Rectangle) : Grown start region added (c.place key bounds) where
  anchored := Spotlight.Anchored.setBounds h.anchored key bounds
  forest_eq := by
    rw [← h.forest_eq] at hkey ⊢
    exact Forest.prune_place bounds hkey
  keys_perm := by simpa [Canvas.place, Diagram.setBounds] using h.keys_perm
  spotlight_eq := h.spotlight_eq
  registered_eq := h.registered_eq
  highlight_eq := h.highlight_eq
  pointer_eq := h.pointer_eq

/-- A live region that is not among the earlier ones is registered. -/
theorem Grown.register (h : Grown start region added c)
    (hlive : key ∈ c.diagram.forest.keys) (hkey : key ∉ start.diagram.forest.keys) :
    Grown start region added { c with spotlight := c.spotlight.register key } where
  anchored := by
    apply Spotlight.Anchored.perform h.anchored (.register key)
    rintro other ⟨⟩
    exact hlive
  forest_eq := h.forest_eq
  keys_perm := h.keys_perm
  spotlight_eq := by
    rw [Spotlight.register_eq, h.spotlight_eq]
  registered_eq other hother := by
    have hne : other ≠ key := by
      rintro rfl
      exact hkey hother
    rw [Spotlight.isRegistered_register_of_mem_keys h.anchored.sound hlive (h.mem_keys hother)
      hne]
    exact h.registered_eq other hother
  highlight_eq other := by
    rw [Spotlight.Anchored.highlight_register h.anchored hlive]
    exact h.highlight_eq other
  pointer_eq := h.pointer_eq

theorem Grown.enroll (h : Grown start region added c) (hlive : key ∈ c.diagram.forest.keys)
    (hkey : key ∉ start.diagram.forest.keys) (kind : RegionKind) :
    Grown start region added { c with spotlight := c.spotlight.enroll key kind } := by
  unfold Spotlight.enroll
  split
  · exact h.register hlive hkey
  · exact h

/-- A decorator whose region was added as it may be is completed by its heading and by its
registration. -/
theorem Grown.complete (hfresh : decorator.region ∉ start.diagram.forest.keys)
    (hmount : Decorator.mount? c parent dimensions = some (decorator, next))
    (hfirst : ∀ middle,
      c.diagram.insert? parent .focusable .unplaced = some (decorator.region, middle) →
        Grown start region (added ++ [decorator.region]) { c with diagram := middle }) :
    Grown start region (added ++ [decorator.region, decorator.headingRegion]) next := by
  rcases mount?_cases hmount with ⟨middle, hinsert, hsecond⟩
  have hmiddle := hfirst middle hinsert
  have hdiagram := hmiddle.insert? hfresh hsecond
  have hlive : decorator.region ∈ next.diagram.forest.keys :=
    hdiagram.keys_perm.mem_iff.mpr (by simp)
  have hnext := hdiagram.register hlive hfresh
  rw [List.append_assoc] at hnext
  rw [eq_of_mount? hmount]
  exact hnext

/-- A mounted decorator is the beginning of what grows within its region. -/
theorem Grown.of_mount? (h : IsAnchored start)
    (hmount : Decorator.mount? start parent dimensions = some (decorator, next)) :
    Grown start decorator.region [decorator.region, decorator.headingRegion] next := by
  rcases mount?_cases hmount with ⟨middle, hinsert, -⟩
  have hfresh := Diagram.not_mem_keys_of_insert? h.sound hinsert
  have hgrown : Grown start decorator.region
      ([] ++ [decorator.region, decorator.headingRegion]) next :=
    Grown.complete hfresh hmount fun _ hfirst => Grown.begin h hfirst
  exact hgrown

/-- Another decorator is mounted below a region that is not among the earlier ones. -/
theorem Grown.mount? (h : Grown start region added c) {parent : RegionKey}
    (hparent : parent ∉ start.diagram.forest.keys)
    (hmount : Decorator.mount? c (some parent) dimensions = some (decorator, next)) :
    Grown start region (added ++ [decorator.region, decorator.headingRegion]) next := by
  rcases mount?_cases hmount with ⟨middle, hinsert, -⟩
  have hnew := Diagram.not_mem_keys_of_insert? h.anchored.sound hinsert
  exact Grown.complete (fun hkey => hnew (h.mem_keys hkey)) hmount
    fun _ hfirst => h.insert? hparent hfirst

/-! ## Calls that are confined to a region -/

/-- Whether a call does nothing but add regions within the given one, register them, and move
what lies within.  A call whose target is not live does nothing at all. -/
def confines (region : RegionKey) (c : Canvas) : Call → Bool
  | .operate (.insert (some parent) _ _) => c.diagram.isInside region parent
  | .operate (.mount (some parent) _) => c.diagram.isInside region parent
  | .operate (.place key _) => c.diagram.isInside region key
  | .operate (.arrange decorator _ _ _) =>
      c.diagram.isInside region decorator.region &&
        c.diagram.isInside region decorator.headingRegion
  | .add (some parent) _ _ => c.diagram.isInside region parent
  | .request (.register key) => c.diagram.isWithin key region
  | _ => false

/-- A call that is confined to the given region. -/
def Confined (region : RegionKey) (c : Canvas) (call : Call) : Prop :=
  confines region c call = true

instance (region : RegionKey) (c : Canvas) (call : Call) :
    Decidable (Confined region c call) :=
  inferInstanceAs (Decidable (_ = _))

/-- The keys of the regions that a call adds. -/
def addedBy (c : Canvas) : Call → List RegionKey
  | .operate (.insert parent kind bounds) => c.diagram.handsOut (.insert parent kind bounds)
  | .operate (.mount parent dimensions) =>
      match Decorator.mount? c parent dimensions with
      | some (decorator, _) => [decorator.region, decorator.headingRegion]
      | none => []
  | .add parent kind bounds => c.diagram.handsOut (.insert parent kind bounds)
  | _ => []

/-- Adding below a region that is not among the earlier ones, whether or not it is refused. -/
theorem Grown.add (h : Grown start region added c) {parent : RegionKey}
    (hparent : parent ∉ start.diagram.forest.keys) (kind : RegionKind) (bounds : Rectangle) :
    Grown start region (added ++ c.diagram.handsOut (.insert (some parent) kind bounds))
      { c with diagram := c.diagram.perform (.insert (some parent) kind bounds) } := by
  cases hinsert : c.diagram.insert? (some parent) kind bounds with
  | none => simpa [Diagram.handsOut, Diagram.perform, hinsert] using h
  | some result =>
      simpa [Diagram.handsOut, Diagram.perform, hinsert] using h.insert? hparent hinsert

/-- The same with the registration of what is added, if it is focusable. -/
theorem Grown.insert (h : Grown start region added c) {parent : RegionKey}
    (hparent : parent ∉ start.diagram.forest.keys) (kind : RegionKind) (bounds : Rectangle) :
    Grown start region (added ++ c.diagram.handsOut (.insert (some parent) kind bounds))
      (c.insert (some parent) kind bounds) := by
  cases hinsert : c.diagram.insert? (some parent) kind bounds with
  | none => simpa [Diagram.handsOut, Canvas.insert, hinsert] using h
  | some result =>
      rcases result with ⟨key, diagram⟩
      have hgrown := h.insert? hparent hinsert
      have hlive : key ∈ diagram.forest.keys := hgrown.keys_perm.mem_iff.mpr (by simp)
      have hnew : key ∉ start.diagram.forest.keys := fun hkey =>
        Diagram.not_mem_keys_of_insert? h.anchored.sound hinsert (h.mem_keys hkey)
      simpa [Diagram.handsOut, Canvas.insert, hinsert] using hgrown.enroll hlive hnew kind

/-- A confined call adds to what has grown and changes nothing else. -/
theorem Grown.serve (h : Grown start region added c) (hconfined : Confined region c call) :
    Grown start region (added ++ c.addedBy call) (c.serve call) := by
  have hinside : ∀ key, c.diagram.isInside region key = true →
      key ∉ start.diagram.forest.keys := fun key => h.not_mem_of_isInside
  cases call with
  | operate operation =>
      cases operation with
      | insert parent kind bounds =>
          cases parent with
          | none => cases hconfined
          | some parent =>
              exact h.insert (hinside parent hconfined) kind bounds
      | mount parent dimensions =>
          cases parent with
          | none => cases hconfined
          | some parent =>
              cases hmount : Decorator.mount? c (some parent) dimensions with
              | none =>
                  simpa [addedBy, Canvas.serve, Canvas.step, perform, hmount] using h
              | some mounted =>
                  simpa [addedBy, Canvas.serve, Canvas.step, perform, hmount] using
                    h.mount? (hinside parent hconfined) hmount
      | place key bounds =>
          have hadded : added ++ c.addedBy (.operate (.place key bounds)) = added :=
            List.append_nil added
          rw [hadded]
          exact h.place (hinside key hconfined) bounds
      | arrange decorator box statement hasBreakpoint =>
          rcases arrange_eq_place decorator c box statement hasBreakpoint with
            ⟨bounds, heading, hnext⟩
          obtain ⟨hregion, hheading⟩ := Bool.and_eq_true_iff.mp hconfined
          have hadded : added ++
              c.addedBy (.operate (.arrange decorator box statement hasBreakpoint)) = added :=
            List.append_nil added
          rw [hadded]
          change Grown start region added (decorator.arrange c box statement hasBreakpoint).2
          rw [hnext]
          exact (h.place (hinside _ hregion) bounds).place (hinside _ hheading) heading
      | _ => cases hconfined
  | add parent kind bounds =>
      cases parent with
      | none => cases hconfined
      | some parent =>
          exact h.add (hinside parent hconfined) kind bounds
  | request operation =>
      cases operation with
      | register key =>
          have hwithin : c.diagram.isWithin key region = true := hconfined
          have hadded : added ++ c.addedBy (.request (.register key)) = added :=
            List.append_nil added
          rw [hadded]
          exact h.register (Diagram.mem_keys_of_isWithin hwithin).1
            (hinside key (by simp [Diagram.isInside, hwithin]))
      | _ => cases hconfined
  | handle owner crossing now => cases hconfined
  | dispatch crossing now => cases hconfined

/-- A confined run adds to what has grown and changes nothing else. -/
theorem Grown.foldl (h : Grown start region added c) {calls : List Call}
    (hconfined : Along Canvas.serve (Confined region) c calls) :
    Grown start region (added ++ gathered Canvas.serve addedBy c calls)
      (calls.foldl Canvas.serve c) := by
  induction calls generalizing added c with
  | nil => simpa [gathered] using h
  | cons call rest ih =>
      have hrest := ih (h.serve hconfined.1) hconfined.2
      rw [List.append_assoc] at hrest
      exact hrest

/-! ## Unmounting -/

/-- A region that is not live is hidden. -/
theorem highlight_of_not_mem (h : IsAnchored c) (hkey : key ∉ c.diagram.forest.keys) :
    c.spotlight.highlight key = .hidden := by
  apply Spotlight.highlight_of_not_registered
  rw [← Bool.not_eq_true]
  exact fun hregistered => hkey (h.live key hregistered)

/-- Deregistering what has been added since, and nobody else, gives the spotlight back. -/
theorem Grown.foldl_deregister (hstart : IsAnchored start) (h : Grown start region added c)
    {removed : List RegionKey}
    (hremoved : ∀ key ∈ c.diagram.forest.keys,
      key ∈ removed ↔ key ∉ start.diagram.forest.keys)
    (hnew : ∀ key ∈ removed, key ∉ start.diagram.forest.keys) :
    removed.foldl Spotlight.deregister c.spotlight = start.spotlight := by
  have hnamed : ∀ key, start.spotlight.isRegistered key = true → key ∉ removed :=
    fun key hregistered hkey => hnew key hkey (hstart.live key hregistered)
  have hactive : c.spotlight.active = start.spotlight.active := by rw [h.spotlight_eq]
  have hpending : c.spotlight.pending? = start.spotlight.pending? := by
    rw [h.spotlight_eq]
    rfl
  apply Spotlight.eq_of_registry
  · have hheld : removed.foldl Spotlight.deregister c.spotlight = { c.spotlight with
        registry := (removed.foldl Spotlight.deregister c.spotlight).registry } := by
      apply Spotlight.foldl_deregister_eq
      · intro key hkey hholder
        rw [hactive] at hholder
        exact hnamed key (hstart.grounded.active_registered key hholder) hkey
      · rintro key hkey pending hwaiting rfl
        rw [hpending] at hwaiting
        exact hnamed _ (hstart.grounded.pending_registered pending hwaiting) hkey
    exact hheld.trans (congrArg (fun s : Spotlight => { s with
      registry := (removed.foldl Spotlight.deregister c.spotlight).registry }) h.spotlight_eq)
  · intro key
    rw [Bool.eq_iff_iff, Spotlight.isRegistered_foldl_deregister_iff]
    constructor
    · rintro ⟨hregistered, hstays⟩
      have hlive := h.anchored.live key hregistered
      have hold := not_not.mp (mt (hremoved key hlive).mpr hstays)
      rwa [← h.registered_eq key hold]
    · intro hregistered
      rw [h.registered_eq key (hstart.live key hregistered)]
      exact ⟨hregistered, hnamed key hregistered⟩
  · intro key
    rw [Spotlight.highlight_foldl_deregister, h.highlight_eq]
    split
    · rename_i hkey
      exact (highlight_of_not_mem hstart (hnew key hkey)).symm
    · rfl

/-- Unmounting takes off what has grown on the region of a decorator, and reports it. -/
theorem Grown.unmount (hstart : IsAnchored start) (h : Grown start decorator.region added c) :
    (decorator.unmount c).2.diagram.forest = start.diagram.forest ∧
      (decorator.unmount c).2.spotlight = start.spotlight ∧
      (decorator.unmount c).2.pointer = start.pointer ∧
      (decorator.unmount c).1.Perm added ∧ (decorator.unmount c).1.Nodup := by
  have hsound : c.diagram.Sound := h.anchored.sound
  have hforest : (c.diagram.remove decorator.region).2.forest = start.diagram.forest := by
    rw [Diagram.forest_remove]
    exact h.forest_eq
  have hstays : ∀ key, key ∈ start.diagram.forest.keys ↔
      key ∈ c.diagram.forest.keys ∧ key ∉ (c.diagram.remove decorator.region).1 := by
    rw [← hforest]
    exact fun key => Diagram.mem_keys_remove_iff hsound
  refine ⟨hforest, ?_, h.pointer_eq, ?_, ?_⟩
  · apply h.foldl_deregister hstart
    · intro key hlive
      rw [hstays, not_and, not_not]
      exact ⟨fun hkey _ => hkey, fun hkey => hkey hlive⟩
    · intro key hkey hold
      exact ((hstays key).mp hold).2 hkey
  · have hall := (Diagram.perm_keys_remove hsound decorator.region).symm.trans h.keys_perm
    rw [hforest] at hall
    exact (List.perm_append_right_iff _).mp hall
  · exact hsound.nodup_keys.sublist (Diagram.removed_sublist_keys hsound decorator.region)

end Canvas

end NestedHover
