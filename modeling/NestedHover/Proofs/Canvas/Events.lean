import NestedHover.Proofs.Pointer.Settling
import NestedHover.Proofs.Runs

/-!
# Events on a canvas

While the diagram of a canvas stays as it is, two things happen: the pointer moves and
time passes.  A run of such events changes neither the regions nor who is registered
nor the settings, and it keeps the records of the highlight in agreement as long as no
event fails.

Main results:

- Theorem {lit}`after_cases`: everything that an event does.
- Theorem {lit}`settled_after`: an event that does not fail leaves the spotlight settled
  on the owner under the pointer.
- Theorem {lit}`Attended.play`: in every state that a run of such events reaches,
  the spotlight has settled on the owner under the pointer and somebody holds the
  highlight; without such an owner nobody is waiting for it.
-/

namespace NestedHover

namespace Canvas

/-! ## Runs of events -/

/-- What happens on a canvas whose diagram stays as it is. -/
inductive Event where
  /-- The pointer moves to a position or off the canvas. -/
  | move (position : Option Point) (now : Instant)
  /-- Time passes. -/
  | tick (now : Instant)
deriving DecidableEq, Repr

/-- The instant of an event. -/
def Event.now : Event → Instant
  | .move _ now => now
  | .tick now => now

/-- Lets an event happen, and answers whether it fails. -/
def react (c : Canvas) : Event → Except ClockError Unit × Canvas
  | .move position now =>
      let outcome := c.movePointer position now
      (outcome.1.map fun _ => (), outcome.2)
  | .tick now => (.ok (), { c with spotlight := (c.spotlight.tick now).2 })

/-- The canvas after an event. -/
def after (c : Canvas) (event : Event) : Canvas := (c.react event).2

/-- The canvas after a sequence of events. -/
def play (c : Canvas) (events : List Event) : Canvas := events.foldl after c

/-- An event that does not fail. -/
def Succeeds (c : Canvas) (event : Event) : Prop := (c.react event).1.isOk = true

instance (c : Canvas) (event : Event) : Decidable (c.Succeeds event) :=
  inferInstanceAs (Decidable (_ = _))

@[simp] theorem play_nil (c : Canvas) : c.play [] = c := rfl

theorem play_append (c : Canvas) (first second : List Event) :
    c.play (first ++ second) = (c.play first).play second :=
  List.foldl_append

theorem play_concat (c : Canvas) (events : List Event) (event : Event) :
    c.play (events ++ [event]) = (c.play events).after event := by
  rw [play_append]
  rfl

/-! ## What events leave alone -/

variable {c : Canvas}

@[simp] theorem diagram_after (c : Canvas) (event : Event) :
    (c.after event).diagram = c.diagram := by
  cases event <;> rfl

@[simp] theorem diagram_play (c : Canvas) (events : List Event) :
    (c.play events).diagram = c.diagram := by
  induction events generalizing c with
  | nil => rfl
  | cons event rest ih => exact (ih (c.after event)).trans (diagram_after c event)

/-- After a move the owner is that of the region at the new position. -/
theorem owner?_after_move (c : Canvas) (position : Option Point) (now : Instant) :
    (c.after (.move position now)).owner? =
      (position.bind c.diagram.hit?).bind c.diagram.owner? := by
  change (c.movePointer position now).2.pointer.hovered.bind _ = _
  rw [hovered_movePointer, diagram_after]

/-- Everything that an event does: nothing, if the pointer stays on its region; a
transfer between the owners of the two regions, if it moves to another one; or the
passing of time. -/
theorem after_cases (hsound : c.diagram.Sound) (event : Event) :
    c.after event = c ∨
      ((c.after event).pointer.hovered ≠ c.pointer.hovered ∧
        (c.react event).1.isOk = (c.spotlight.transfer c.diagram c.owner?
          (c.after event).owner? event.now).1.isOk ∧
        (c.after event).spotlight = (c.spotlight.transfer c.diagram c.owner?
          (c.after event).owner? event.now).2) ∨
      c.after event = { c with spotlight := (c.spotlight.tick event.now).2 } := by
  cases event with
  | tick now => exact Or.inr (Or.inr rfl)
  | move position now =>
      by_cases hstays : position.bind c.diagram.hit? = c.pointer.hovered
      · left
        change (c.movePointer position now).2 = c
        rw [movePointer_of_eq hstays]
      · right
        left
        rcases @movePointer_of_ne c position now hsound hstays with ⟨hanswer, hstate⟩
        rw [owner?_after_move]
        refine ⟨?_, (isOk_map _ _).trans hanswer, hstate⟩
        change (c.movePointer position now).2.pointer.hovered ≠ _
        rwa [hovered_movePointer]

@[simp] theorem isRegistered_after (hsound : c.diagram.Sound) (event : Event)
    (key : RegionKey) :
    (c.after event).spotlight.isRegistered key = c.spotlight.isRegistered key := by
  rcases after_cases hsound event with hsame | ⟨-, -, hstate⟩ | htick
  · rw [hsame]
  · rw [hstate, Spotlight.transfer, Spotlight.isRegistered_followAll]
  · rw [htick, Spotlight.isRegistered_tick]

@[simp] theorem settings_after (hsound : c.diagram.Sound) (event : Event) :
    (c.after event).spotlight.settings = c.spotlight.settings := by
  rcases after_cases hsound event with hsame | ⟨-, -, hstate⟩ | htick
  · rw [hsame]
  · rw [hstate, Spotlight.transfer, Spotlight.settings_followAll]
  · rw [htick, Spotlight.settings_tick]

/-- The pointer stays where it was or comes to rest on what is live. -/
theorem hovered_after_cases (c : Canvas) (event : Event) :
    (c.after event).pointer.hovered = c.pointer.hovered ∨
      ∀ key, (c.after event).pointer.hovered = some key → key ∈ c.diagram.forest.keys := by
  cases event with
  | tick now => exact Or.inl rfl
  | move position now =>
      right
      intro key hkey
      rw [after, react, hovered_movePointer] at hkey
      rcases Option.bind_eq_some_iff.mp hkey with ⟨p, -, hhit⟩
      exact Diagram.mem_keys_of_hit?_eq_some hhit

/-! ## Canvases that serve every owner -/

/-- The slots of the diagram are in order and every focusable region is registered. -/
structure Hosted (c : Canvas) : Prop where
  sound : c.diagram.Sound
  registered : ∀ r ∈ c.diagram.forest.regions, r.isFocusable = true →
    c.spotlight.isRegistered r.key = true

/-- On such a canvas owners are registered. -/
theorem Hosted.isRegistered_owner (h : Hosted c) {key owner : RegionKey}
    (howner : c.diagram.owner? key = some owner) :
    c.spotlight.isRegistered owner = true := by
  rcases Diagram.exists_region_of_owner?_eq_some howner with ⟨r, hr, hfocusable, rfl⟩
  exact h.registered r hr hfocusable

theorem Hosted.isRegistered_owner? (h : Hosted c) {owner : RegionKey}
    (howner : c.owner? = some owner) : c.spotlight.isRegistered owner = true := by
  rcases Option.bind_eq_some_iff.mp howner with ⟨key, -, hkey⟩
  exact h.isRegistered_owner hkey

theorem Hosted.after (h : Hosted c) (event : Event) : Hosted (c.after event) where
  sound := by
    rw [diagram_after]
    exact h.sound
  registered r hr hfocusable := by
    rw [diagram_after] at hr
    rw [isRegistered_after h.sound]
    exact h.registered r hr hfocusable

theorem Hosted.play (h : Hosted c) (events : List Event) : Hosted (c.play events) :=
  List.foldlRecOn events Canvas.after h fun _ hhosted event _ => hhosted.after event

theorem settings_play (h : Hosted c) (events : List Event) :
    (c.play events).spotlight.settings = c.spotlight.settings := by
  induction events generalizing c with
  | nil => rfl
  | cons event rest ih => exact (ih (h.after event)).trans (settings_after h.sound event)

/-- An event that does not fail leaves the spotlight settled on the owner under the
pointer. -/
theorem settled_after (h : Hosted c) {event : Event} (hok : c.Succeeds event)
    (hsettled : ∀ owner, c.owner? = some owner → c.spotlight.Settled owner)
    (owner : RegionKey) (howner : (c.after event).owner? = some owner) :
    (c.after event).spotlight.Settled owner := by
  rcases after_cases h.sound event with hsame | ⟨-, hanswer, hstate⟩ | htick
  · rw [hsame] at howner ⊢
    exact hsettled owner howner
  · have hregistered := (h.after event).isRegistered_owner? howner
    rw [isRegistered_after h.sound] at hregistered
    rw [howner] at hanswer hstate
    rw [hstate]
    exact Spotlight.settled_transfer hregistered (hanswer ▸ hok)
  · rw [htick] at howner ⊢
    have hstill : c.owner? = some owner := howner
    exact (hsettled owner hstill).tick (h.isRegistered_owner? hstill) event.now

/-! ## Canvases that only events have touched -/

/-- What events keep on a canvas that serves every owner: the records of the highlight
agree; the spotlight has settled on the owner under the pointer and somebody holds the
highlight; and without such an owner nobody is waiting for the highlight. -/
structure Attended (c : Canvas) : Prop extends Hosted c where
  coherent : c.spotlight.Coherent
  settled : ∀ owner, c.owner? = some owner → c.spotlight.Settled owner
  held : c.owner?.isSome = true → c.spotlight.active.isSome = true
  unclaimed : c.owner? = none → ∀ region, c.spotlight.pending? ≠ some (.activate region)

/-- An event that does not fail keeps the records of the highlight in agreement. -/
theorem coherent_after (hsound : c.diagram.Sound) (hcoherent : c.spotlight.Coherent)
    {event : Event} (hok : c.Succeeds event) : (c.after event).spotlight.Coherent := by
  rcases after_cases hsound event with hsame | ⟨-, hanswer, hstate⟩ | htick
  · rwa [hsame]
  · rw [hstate]
    exact hcoherent.followAll (hanswer ▸ hok)
  · rw [htick]
    exact hcoherent.tick event.now

/-- While there is an owner under the pointer, somebody holds the highlight. -/
theorem Attended.held_after (h : Attended c) {event : Event} (hok : c.Succeeds event)
    (hclaimed : (c.after event).owner?.isSome = true) :
    (c.after event).spotlight.active.isSome = true := by
  rcases Option.isSome_iff_exists.mp hclaimed with ⟨owner, howner⟩
  rcases after_cases h.sound event with hsame | ⟨-, hanswer, hstate⟩ | htick
  · rw [hsame] at hclaimed ⊢
    exact h.held hclaimed
  · have hregistered := (h.toHosted.after event).isRegistered_owner? howner
    rw [isRegistered_after h.sound] at hregistered
    rw [howner] at hanswer hstate
    rw [hstate]
    exact Spotlight.isSome_active_transfer hregistered h.held (hanswer ▸ hok)
  · rw [htick] at howner hclaimed ⊢
    have hstill : c.owner? = some owner := howner
    have hregistered := h.toHosted.isRegistered_owner? hstill
    rcases (h.settled owner hstill).tick_cases hregistered event.now with
      hsame | ⟨hactive, -⟩
    · rw [hsame]
      exact h.held hclaimed
    · rw [hactive]
      rfl

/-- While there is no owner under the pointer, nobody is waiting for the highlight. -/
theorem Attended.unclaimed_after (h : Attended c) {event : Event}
    (hok : c.Succeeds event) (hnone : (c.after event).owner? = none)
    (region : RegionKey) :
    (c.after event).spotlight.pending? ≠ some (.activate region) := by
  rcases after_cases h.sound event with hsame | ⟨-, hanswer, hstate⟩ | htick
  · rw [hsame] at hnone ⊢
    exact h.unclaimed hnone region
  · rw [hnone] at hanswer hstate
    rw [hstate]
    cases hleft : c.owner? with
    | none => exact h.unclaimed hleft region
    | some left =>
        rw [hleft] at hanswer
        obtain ⟨hsame, hnext⟩ :=
          Spotlight.transfer_some_none c.spotlight c.diagram left event.now
        have hregistered := h.toHosted.isRegistered_owner? hleft
        have hrequest : (c.spotlight.deactivateLater left event.now).1.isOk = true :=
          hsame ▸ hanswer ▸ hok
        rw [hnext, Spotlight.pending?_deactivateLater_of_isOk hregistered hrequest]
        exact nofun
  · rw [htick] at hnone ⊢
    have hidle := h.unclaimed hnone
    rw [Spotlight.pending?_tick]
    split
    · exact nofun
    · exact hidle region

/-- An event that does not fail keeps all of this. -/
theorem Attended.after (h : Attended c) {event : Event} (hok : c.Succeeds event) :
    Attended (c.after event) where
  toHosted := h.toHosted.after event
  coherent := coherent_after h.sound h.coherent hok
  settled := settled_after h.toHosted hok h.settled
  held := h.held_after hok
  unclaimed := h.unclaimed_after hok

/-- A run in which no event fails. -/
theorem Attended.play (h : Attended c) {events : List Event}
    (hok : Along Canvas.after Succeeds c events) : Attended (c.play events) :=
  foldl_of_along (fun _ _ hattended hcall => hattended.after hcall) h hok

/-! ## Before the first event -/

/-- A diagram with a fresh spotlight, on which the given regions have been registered in
order. -/
def opening (d : Diagram) (settings : Settings) (keys : List RegionKey) : Canvas where
  diagram := d
  spotlight := keys.foldl Spotlight.register { settings }

/-- A canvas before the first event: its diagram has been built up by any changes, and
all that has happened to its spotlight is that the focusable regions, and maybe others,
have been registered. -/
structure Prepared (c : Canvas) : Prop where
  exists_opening : ∃ changes settings keys,
    c = opening (({} : Diagram).run changes) settings keys
  registered : ∀ r ∈ c.diagram.forest.regions, r.isFocusable = true →
    c.spotlight.isRegistered r.key = true

theorem Prepared.blank (h : Prepared c) : c.spotlight.Blank := by
  rcases h.exists_opening with ⟨changes, settings, keys, rfl⟩
  exact List.foldlRecOn keys Spotlight.register (Spotlight.blank_fresh settings)
    fun _ hblank region _ => hblank.register region

theorem Prepared.hosted (h : Prepared c) : Hosted c where
  sound := by
    rcases h.exists_opening with ⟨changes, settings, keys, rfl⟩
    exact Diagram.sound_run changes
  registered := h.registered

theorem Prepared.owner?_eq_none (h : Prepared c) : c.owner? = none := by
  rcases h.exists_opening with ⟨changes, settings, keys, rfl⟩
  rfl

/-- What events keep holds before the first of them. -/
theorem Prepared.attended (h : Prepared c) : Attended c where
  toHosted := h.hosted
  coherent := h.blank.coherent
  settled _ howner := absurd (h.owner?_eq_none.symm.trans howner) nofun
  held hclaimed := absurd (h.owner?_eq_none ▸ hclaimed) nofun
  unclaimed _ _ hpending := absurd (h.blank.pending?_eq.symm.trans hpending) nofun

end Canvas

end NestedHover
