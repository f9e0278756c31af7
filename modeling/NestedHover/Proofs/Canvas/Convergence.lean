import NestedHover.Proofs.Canvas.Operations

/-!
# The highlight follows the pointer

Whatever is done to a canvas, the spotlight has settled on the owner of the region
under the pointer, if there is one.  Adding, moving and removing regions, forgetting
them and changing the settings do not touch what the last move of the pointer has
settled: the owner of the region under the pointer stays the same as long as that
region lives, and a key that the pointer still holds after its region was removed is
never given to another one.

The invariant {lit}`Maintained` says besides that exactly the live focusable regions
have to be served: they are registered, and nobody is registered who is not live.  So
the slot of a region that is being added is free in the registry.

Main results:

- Theorems {lit}`Maintained.insert`, {lit}`Maintained.place`,
  {lit}`Maintained.discard`, {lit}`Maintained.forget`, {lit}`Maintained.configure` and
  {lit}`Maintained.after`: the changes to a canvas keep the invariant.
- Theorem {lit}`Maintained.run`: so does a run in which no call fails and fewer than
  2^31 regions are added.
- Theorem {lit}`settles_on_owner_under_pointer`: in every state of such a run the owner
  under the pointer holds the highlight with nothing pending, or its activation is
  pending; once the deadline is reached it holds the highlight.
-/

namespace NestedHover

namespace Canvas

variable {c : Canvas} {n : Nat}

/-! ## The invariant -/

/-- What every call keeps, with a bound on the number of regions that were added. -/
structure Maintained (n : Nat) (c : Canvas) : Prop extends Hosted c where
  handedOut : c.diagram.HandedOut n
  live : ∀ key, c.spotlight.isRegistered key = true → key ∈ c.diagram.forest.keys
  issued : ∀ key, c.pointer.hovered = some key → c.diagram.Issued key
  settled : ∀ owner, c.owner? = some owner → c.spotlight.Settled owner

theorem maintained_empty (settings : Settings) :
    Maintained 0 { spotlight := { settings } } where
  sound := Diagram.sound_empty
  registered _ hr := absurd hr List.not_mem_nil
  handedOut := Diagram.HandedOut.empty
  live _ hregistered := absurd hregistered nofun
  issued := nofun
  settled := nofun

/-! ## Adding regions -/

/-- Adding a region keeps the invariant. -/
theorem Maintained.insert (h : Maintained n c) (hn : n < 0x80000000)
    {parent : Option RegionKey} {kind : RegionKind} {bounds : Rectangle}
    (hsome : (c.diagram.insert? parent kind bounds).isSome = true) :
    Maintained (n + 1) (c.insert parent kind bounds) := by
  rcases Option.isSome_iff_exists.mp hsome with ⟨⟨key, next⟩, hinsert⟩
  have hstate : c.insert parent kind bounds = { c with
      diagram := next
      spotlight := c.spotlight.enroll key kind } := by
    simp [Canvas.insert, hinsert]
  have hempty : ∀ other, c.spotlight.isRegistered other = true →
      other.index ≠ key.index := fun other hother =>
    Diagram.index_ne_of_insert? h.sound hinsert (h.live other hother)
  rw [hstate]
  constructor
  · refine ⟨h.sound.insert? hinsert, ?_⟩
    intro r hr hfocusable
    change (c.spotlight.enroll key kind).isRegistered r.key = true
    rcases (Diagram.mem_regions_insert?_iff h.sound hinsert).mp hr with rfl | hr
    · have hkind : kind = .focusable := by simpa [Region.isFocusable] using hfocusable
      rw [Spotlight.enroll, if_pos hkind]
      exact Spotlight.isRegistered_register_self
        (Diagram.isNull_of_insert? h.sound h.handedOut hn hinsert) hempty
    · have hregistered := h.registered r hr hfocusable
      rwa [Spotlight.isRegistered_enroll_of_index_ne (hempty r.key hregistered)]
  · exact h.handedOut.insert? h.sound hn hinsert
  · intro other hother
    apply (Diagram.mem_keys_insert?_iff h.sound hinsert).mpr
    exact (Spotlight.isRegistered_of_enroll hother).imp_right (h.live other)
  · intro other hother
    exact (h.issued other hother).insert? h.sound h.handedOut hn hinsert
  · intro owner howner
    rcases Option.bind_eq_some_iff.mp howner with ⟨region, hregion, hnext⟩
    -- the pointer cannot rest on the new region: its key has never been handed out
    have hne : region ≠ key := by
      rintro rfl
      have hissued := h.issued region hregion
      rw [(Diagram.insert?_cases h.sound hinsert).1] at hissued
      exact Diagram.not_issued_next h.sound h.handedOut hn hissued
    rw [Diagram.owner?_insert? h.sound hinsert hne] at hnext
    have hsettled := h.settled owner (Option.bind_eq_some_iff.mpr ⟨region, hregion, hnext⟩)
    exact hsettled.enroll key kind

/-! ## Moving and removing regions -/

/-- Moving a region keeps the invariant. -/
theorem Maintained.place (h : Maintained n c) (key : RegionKey) (bounds : Rectangle) :
    Maintained n (c.place key bounds) := by
  constructor
  · refine ⟨h.sound.setBounds key bounds, ?_⟩
    intro r hr hfocusable
    change r ∈ (c.diagram.setBounds key bounds).2.forest.regions at hr
    rw [Diagram.forest_setBounds h.sound, Forest.regions_map] at hr
    rcases List.mem_map.mp hr with ⟨old, hold, rfl⟩
    rw [Region.key_placed]
    rw [Region.isFocusable_placed] at hfocusable
    exact h.registered old hold hfocusable
  · exact h.handedOut.setBounds key bounds
  · intro other hother
    have hlive := h.live other hother
    rw [← Diagram.contains_eq_true_iff] at hlive ⊢
    rwa [Canvas.place, Diagram.contains_setBounds]
  · intro other hother
    exact (h.issued other hother).setBounds key bounds
  · intro owner howner
    rcases Option.bind_eq_some_iff.mp howner with ⟨region, hregion, hnext⟩
    rw [Canvas.place, Diagram.owner?_setBounds h.sound] at hnext
    exact h.settled owner (Option.bind_eq_some_iff.mpr ⟨region, hregion, hnext⟩)

/-- Removing regions keeps the invariant: what the pointer rests on either stays, with
its owner, or has no owner any more. -/
theorem Maintained.discard (h : Maintained n c) (key : RegionKey) :
    Maintained n (c.discard key) := by
  constructor
  · refine ⟨h.sound.remove key, ?_⟩
    intro r hr hfocusable
    rcases (Diagram.mem_regions_remove_iff h.sound).mp hr with ⟨hold, hstays⟩
    exact Spotlight.isRegistered_foldl_deregister_iff.mpr
      ⟨h.registered r hold hfocusable, hstays⟩
  · exact h.handedOut.remove h.sound key
  · intro other hother
    obtain ⟨hregistered, hstays⟩ :=
      Spotlight.isRegistered_foldl_deregister_iff.mp hother
    exact (Diagram.mem_keys_remove_iff h.sound).mpr ⟨h.live other hregistered, hstays⟩
  · intro other hother
    exact (h.issued other hother).remove h.sound key
  · intro owner howner
    rcases Option.bind_eq_some_iff.mp howner with ⟨region, hregion, hnext⟩
    rcases Diagram.exists_region_of_owner?_eq_some hnext with ⟨r, hr, -, rfl⟩
    have hstays := ((Diagram.mem_regions_remove_iff h.sound).mp hr).2
    rw [Canvas.discard,
      Diagram.owner?_remove h.sound (Diagram.mem_keys_of_owner?_eq_some hnext)] at hnext
    have hsettled := h.settled r.key (Option.bind_eq_some_iff.mpr ⟨region, hregion, hnext⟩)
    exact hsettled.foldl_deregister hstays

/-! ## Changes that leave the regions -/

/-- Forgetting what the pointer rests on keeps the invariant. -/
theorem Maintained.forget (h : Maintained n c) (key : RegionKey) :
    Maintained n (c.forget key) := by
  have hhovered : ∀ other, (c.forget key).pointer.hovered = some other →
      c.pointer.hovered = some other := fun other hother =>
    (Option.filter_eq_some_iff.mp hother).1
  refine ⟨⟨h.sound, h.registered⟩, h.handedOut, h.live, ?_, ?_⟩
  · intro other hother
    exact h.issued other (hhovered other hother)
  · intro owner howner
    rcases Option.bind_eq_some_iff.mp howner with ⟨region, hregion, hnext⟩
    exact h.settled owner (Option.bind_eq_some_iff.mpr ⟨region, hhovered _ hregion, hnext⟩)

/-- Changing the settings keeps the invariant. -/
theorem Maintained.configure (h : Maintained n c) (settings : Settings) :
    Maintained n (c.configure settings) :=
  ⟨⟨h.sound, h.registered⟩, h.handedOut, h.live, h.issued, h.settled⟩

/-- An event that does not fail keeps the invariant. -/
theorem Maintained.after (h : Maintained n c) {event : Event} (hok : c.Succeeds event) :
    Maintained n (c.after event) := by
  refine ⟨h.toHosted.after event, ?_, ?_, ?_, settled_after h.toHosted hok h.settled⟩
  · rw [diagram_after]
    exact h.handedOut
  · intro key hkey
    rw [isRegistered_after h.sound] at hkey
    rw [diagram_after]
    exact h.live key hkey
  · intro key hkey
    rw [diagram_after]
    rcases hovered_after_cases c event with hsame | hlive
    · rw [hsame] at hkey
      exact h.issued key hkey
    · exact Diagram.issued_of_mem_keys (hlive key hkey)

/-! ## Runs -/

/-- A call that does not fail keeps the invariant, as long as the regions that it adds
stay within the bound. -/
theorem Maintained.step (h : Maintained n c) {operation : Operation}
    (hworks : c.Works operation) (hfew : n + c.added operation < 0x80000000) :
    Maintained (n + c.added operation) (c.step operation) := by
  cases operation with
  | insert parent kind bounds =>
      cases hsome : (c.diagram.insert? parent kind bounds).isSome with
      | true =>
          have hadded : c.added (.insert parent kind bounds) = 1 := by simp [added, hsome]
          rw [hadded] at hfew ⊢
          exact h.insert (by omega) hsome
      | false =>
          have hadded : c.added (.insert parent kind bounds) = 0 := by simp [added, hsome]
          have hsame : c.step (.insert parent kind bounds) = c := insert_of_eq_none hsome
          rwa [hadded, hsame]
  | mount parent dimensions =>
      cases hmount : Decorator.mount? c parent dimensions with
      | some mounted =>
          rcases mounted with ⟨decorator, next⟩
          have hadded : c.added (.mount parent dimensions) = 2 := by simp [added, hmount]
          have hnext : c.step (.mount parent dimensions) = next := by
            simp [Canvas.step, perform, hmount]
          rcases mount?_eq_insert hmount with ⟨middle, hfirst, rfl, hsecond, rfl⟩
          rw [hadded] at hfew ⊢
          rw [hnext]
          exact (h.insert (by omega) hfirst).insert (by omega) hsecond
      | none =>
          have hadded : c.added (.mount parent dimensions) = 0 := by simp [added, hmount]
          have hsame : c.step (.mount parent dimensions) = c := by
            simp [Canvas.step, perform, hmount]
          rwa [hadded, hsame]
  | place key bounds => exact h.place key bounds
  | arrange decorator box statement hasBreakpoint =>
      rcases arrange_eq_place decorator c box statement hasBreakpoint with
        ⟨bounds, heading, hnext⟩
      change Maintained n (decorator.arrange c box statement hasBreakpoint).2
      rw [hnext]
      exact (h.place decorator.region bounds).place decorator.headingRegion heading
  | discard key => exact h.discard key
  | unmount decorator =>
      change Maintained n (decorator.unmount c).2
      rw [unmount_eq_discard]
      exact h.discard decorator.region
  | forget key => exact h.forget key
  | configure settings => exact h.configure settings
  | event event => exact h.after hworks

/-- A run in which no call fails keeps the invariant, as long as the regions that it adds
stay within the bound. -/
theorem Maintained.run {operations : List Operation} (h : Maintained n c)
    (hworks : Along Canvas.step Works c operations)
    (hfew : n + c.insertions operations < 0x80000000) :
    Maintained (n + c.insertions operations) (c.run operations) := by
  induction operations generalizing c n with
  | nil => exact h
  | cons operation rest ih =>
      rw [insertions, ← Nat.add_assoc] at hfew ⊢
      exact ih (h.step hworks.1 (by omega)) hworks.2 hfew

/-- In every state that a run reaches from an empty canvas, if no call failed and fewer
than 2^31 regions were added: when the region under the pointer has an owner, that owner
holds the highlight and nothing is pending, or its activation is pending and it does not
hold the highlight yet; and it holds the highlight after time has passed up to the
deadline, if there is one. -/
theorem settles_on_owner_under_pointer (settings : Settings) {operations : List Operation}
    (hworks : Along step Works { spotlight := { settings } } operations)
    (hfew : insertions { spotlight := { settings } } operations < 0x80000000) :
    let c := run { spotlight := { settings } } operations
    ∀ region owner, c.pointer.hovered = some region →
      c.diagram.owner? region = some owner →
      ((c.spotlight.active = some owner ∧ c.spotlight.pending? = none) ∨
        (c.spotlight.pending? = some (.activate owner) ∧
          c.spotlight.active ≠ some owner)) ∧
        ∀ now, (∀ deadline, c.spotlight.deadline? = some deadline → deadline ≤ now) →
          (c.spotlight.tick now).2.active = some owner := by
  intro c region owner hregion howner
  have h : Maintained _ c :=
    (maintained_empty settings).run hworks (by rwa [Nat.zero_add])
  have hsettled := h.settled owner (Option.bind_eq_some_iff.mpr ⟨region, hregion, howner⟩)
  refine ⟨hsettled, fun now hdeadline => ?_⟩
  exact Spotlight.active_tick_of_settled hsettled (h.toHosted.isRegistered_owner howner)
    hdeadline

/-- The spotlight settles on a mounted decorator once the pointer has come back to it from
a region nested in it, while another region is removed and its slot is used again. -/
theorem settles_on_decorator_left_inward :
    let operations : List Operation :=
      [.mount none {}, .place (.fresh 1) ⟨0, 0, 200, 200⟩,
        .insert (some (.fresh 1)) .focusable ⟨20, 40, 100, 100⟩,
        .event (.move (some ⟨35, 55⟩) 0), .insert (some (.fresh 3)) .focusable .unplaced,
        .event (.move (some ⟨150, 150⟩) 10), .discard (.fresh 4), .configure {},
        .insert none .focusable .unplaced]
    let c := run {} operations
    Along step Works {} operations ∧ insertions {} operations < 0x80000000 ∧
      c.pointer.hovered = some (.fresh 1) ∧
      c.diagram.owner? (.fresh 1) = some (.fresh 1) ∧
      (c.spotlight.tick 100000010).2.active = some (.fresh 1) := by
  intro operations c
  have hworks : Along step Works {} operations := by decide
  have hfew : insertions {} operations < 0x80000000 := by decide
  have hhovered : c.pointer.hovered = some (.fresh 1) := by decide
  have howner : c.diagram.owner? (.fresh 1) = some (.fresh 1) := by decide
  have hdeadline : ∀ deadline, c.spotlight.deadline? = some deadline →
      deadline ≤ 100000010 := by
    intro deadline hdeadline
    have harmed : c.spotlight.deadline? = some 100000010 := by decide
    rw [harmed] at hdeadline
    cases hdeadline
    exact Int.le_refl _
  exact ⟨hworks, hfew, hhovered, howner,
    (settles_on_owner_under_pointer {} hworks hfew _ _ hhovered howner).2 _ hdeadline⟩

end Canvas

end NestedHover
