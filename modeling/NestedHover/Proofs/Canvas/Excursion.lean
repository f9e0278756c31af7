import NestedHover.Proofs.Canvas.Events

/-!
# Brief excursions to an enclosing region

The pointer rests on a region whose owner holds the highlight, goes out to the regions
of the next owner around it and comes back, all within the activation delay.  Going out
arms the activation of the outer owner, which does not fall due in that time; coming
back gives the highlight to the inner owner, which holds it.  But a move between two
regions of the outer owner looks like any other way onto a region of it: the owner
that is left is not a nested one, so the highlight goes to the outer owner at once.

So a brief excursion leaves the highlight alone exactly if it never goes from one region
of the outer owner directly to another one.

Main results:

- Theorem {lit}`undisturbed_iff_staysPut`: during an excursion, an event leaves the
  highlight alone exactly when it does not move the pointer between two regions of the
  outer owner.
- Theorem {lit}`undisturbed_excursion_iff`: the same of a whole excursion.
-/

namespace NestedHover

namespace Canvas

variable {c : Canvas} {inner outer : RegionKey} {start : Instant} {n : Nat}
  {event : Event}

/-! ## Excursions -/

/-- Whether an event leaves the pointer on the regions of two owners, if it moves it. -/
def Event.StaysWith (d : Diagram) (inner outer : RegionKey) : Event → Prop
  | .move position _ =>
      (position.bind d.hit?).bind d.owner? = some inner ∨
        (position.bind d.hit?).bind d.owner? = some outer
  | .tick _ => True

instance (d : Diagram) (inner outer : RegionKey) :
    ∀ event : Event, Decidable (event.StaysWith d inner outer)
  | .move _ _ => inferInstanceAs (Decidable (_ ∨ _))
  | .tick _ => isTrue trivial

/-- An event less than a delay after the start that keeps the pointer on the regions of
two owners. -/
def Event.IsBrief (d : Diagram) (inner outer : RegionKey) (start : Instant)
    (delay : Duration) (event : Event) : Prop :=
  start ≤ event.now ∧ event.now < start + (delay : Int) ∧ event.StaysWith d inner outer

instance (d : Diagram) (inner outer : RegionKey) (start : Instant) (delay : Duration)
    (event : Event) : Decidable (event.IsBrief d inner outer start delay) :=
  inferInstanceAs (Decidable (_ ∧ _))

/-- An event after which the given region holds the highlight and no other activation
has been counted. -/
def Undisturbed (inner : RegionKey) (n : Nat) (c : Canvas) (event : Event) : Prop :=
  (c.after event).spotlight.active = some inner ∧
    (c.after event).spotlight.activations = n

instance (inner : RegionKey) (n : Nat) (c : Canvas) (event : Event) :
    Decidable (c.Undisturbed inner n event) :=
  inferInstanceAs (Decidable (_ ∧ _))

/-- An event that does not move the pointer from one region of the given owner directly
to another one. -/
def StaysPut (outer : RegionKey) (c : Canvas) (event : Event) : Prop :=
  c.owner? = some outer → (c.after event).owner? = some outer →
    (c.after event).pointer.hovered = c.pointer.hovered

instance (outer : RegionKey) (c : Canvas) (event : Event) :
    Decidable (c.StaysPut outer event) :=
  inferInstanceAs (Decidable (_ → _ → _))

/-! ## The invariant -/

/-- During an undisturbed excursion the pointer rests on the regions of two owners, one
inside the other; the inner one holds the highlight, and nothing falls due before the
delay is over. -/
structure Away (inner outer : RegionKey) (start : Instant) (n : Nat) (c : Canvas) : Prop
    extends Hosted c where
  inner_ne_outer : inner ≠ outer
  nested : c.diagram.isWithin inner outer = true
  inner_registered : c.spotlight.isRegistered inner = true
  outer_registered : c.spotlight.isRegistered outer = true
  owner_cases : c.owner? = some inner ∨ c.owner? = some outer
  active_eq : c.spotlight.active = some inner
  activations_eq : c.spotlight.activations = n
  deadline_le : ∀ deadline, c.spotlight.deadline? = some deadline →
    start + (c.spotlight.settings.activationDelay : Int) ≤ deadline

/-- The owner under the pointer after an event of an excursion. -/
theorem Away.owner_cases_after (h : Away inner outer start n c)
    (hstays : event.StaysWith c.diagram inner outer) :
    (c.after event).owner? = some inner ∨ (c.after event).owner? = some outer := by
  cases event with
  | move position now =>
      rw [owner?_after_move]
      exact hstays
  | tick now => exact h.owner_cases

/-- Before the delay is over the passing of time changes nothing. -/
theorem Away.tick_eq (h : Away inner outer start n c) {now : Instant}
    (hnow : now < start + (c.spotlight.settings.activationDelay : Int)) :
    (c.spotlight.tick now).2 = c.spotlight := by
  have hdue : c.spotlight.alarm.due? now = none := by
    apply Spotlight.due?_eq_none_of_lt
    intro deadline hdeadline
    exact Int.lt_of_lt_of_le hnow (h.deadline_le deadline hdeadline)
  rw [Spotlight.tick_of_due?_eq_none hdue]

/-- Coming back to the inner owner, or staying with it, leaves the highlight there and
nothing pending. -/
theorem Away.transfer_inner (h : Away inner outer start n c) (now : Instant) :
    let s := (c.spotlight.transfer c.diagram c.owner? (some inner) now).2
    s.active = some inner ∧ s.activations = n ∧ s.deadline? = none := by
  have hsource : ∃ source, c.owner? = some source ∧
      c.diagram.isWithin inner source = true := by
    rcases h.owner_cases with howner | howner
    · have hlive := (Diagram.mem_keys_of_isWithin h.nested).1
      exact ⟨inner, howner, Diagram.isWithin_self hlive⟩
    · exact ⟨outer, howner, h.nested⟩
  rcases hsource with ⟨source, howner, hwithin⟩
  rw [howner, Spotlight.transfer_of_isWithin h.sound hwithin]
  have hregistered := h.inner_registered
  refine ⟨Spotlight.active_activate hregistered, ?_, ?_⟩
  · rw [Spotlight.activations_activate hregistered, if_pos h.active_eq, h.activations_eq]
  · exact Spotlight.deadline?_eq_none_iff.mpr (Spotlight.pending?_activate hregistered)

/-- Going out leaves the highlight on the inner owner, and what is pending then does not
fall due before the delay is over. -/
theorem Away.transfer_outer (h : Away inner outer start n c)
    (hsource : c.owner? = some inner) {now : Instant} (hnow : start ≤ now) :
    let s := (c.spotlight.transfer c.diagram c.owner? (some outer) now).2
    s.active = some inner ∧ s.activations = n ∧
      ∀ deadline, s.deadline? = some deadline →
        start + (c.spotlight.settings.activationDelay : Int) ≤ deadline := by
  rw [hsource]
  obtain ⟨hactive, hcount, hlater⟩ := Spotlight.transfer_outward h.sound
    h.inner_ne_outer h.nested h.inner_registered h.outer_registered now
  refine ⟨hactive.trans h.active_eq, hcount.trans h.activations_eq, ?_⟩
  intro deadline hdeadline
  rw [hlater deadline hdeadline]
  exact Int.add_le_add_right hnow _

/-- Everything that an event does during an excursion.  Either the highlight is left alone
and the event does not go from one region of the outer owner to another one, or it does
and the outer owner takes the highlight. -/
theorem Away.outcome (h : Away inner outer start n c)
    (hbrief : event.IsBrief c.diagram inner outer start
      c.spotlight.settings.activationDelay) :
    ((c.after event).spotlight.active = some inner ∧
        (c.after event).spotlight.activations = n ∧
        (∀ deadline, (c.after event).spotlight.deadline? = some deadline →
          start + (c.spotlight.settings.activationDelay : Int) ≤ deadline) ∧
        c.StaysPut outer event) ∨
      ((c.after event).spotlight.active = some outer ∧ ¬ c.StaysPut outer event) := by
  rcases hbrief with ⟨hstart, hend, hstays⟩
  rcases after_cases h.sound event with hsame | ⟨hmoved, -, hstate⟩ | htick
  · left
    refine ⟨?_, ?_, ?_, fun _ _ => by rw [hsame]⟩
    · rw [hsame, h.active_eq]
    · rw [hsame, h.activations_eq]
    · rw [hsame]
      exact h.deadline_le
  · rcases h.owner_cases_after hstays with htarget | htarget
    · left
      rw [htarget] at hstate
      rcases h.transfer_inner event.now with ⟨hactive, hcount, hidle⟩
      rw [hstate]
      refine ⟨hactive, hcount, ?_, ?_⟩
      · intro deadline hdeadline
        exact absurd (hidle.symm.trans hdeadline) nofun
      · intro _ hback
        rw [htarget] at hback
        exact absurd (Option.some.inj hback) h.inner_ne_outer
    · rw [htarget] at hstate
      rcases h.owner_cases with hsource | hsource
      · left
        rcases h.transfer_outer hsource hstart with ⟨hactive, hcount, hlater⟩
        rw [hstate]
        refine ⟨hactive, hcount, hlater, ?_⟩
        intro hout _
        rw [hsource] at hout
        exact absurd (Option.some.inj hout) h.inner_ne_outer
      · -- from one region of the outer owner to another one
        right
        refine ⟨?_, fun hput => hmoved (hput hsource htarget)⟩
        have hlive := (Diagram.mem_keys_of_isWithin h.nested).2
        rw [hstate, hsource,
          Spotlight.transfer_of_isWithin h.sound (Diagram.isWithin_self hlive)]
        exact Spotlight.active_activate h.outer_registered
  · left
    have hstill := h.tick_eq hend
    rw [htick]
    refine ⟨?_, ?_, ?_, fun _ _ => by rw [htick]⟩
    · rw [hstill, h.active_eq]
    · rw [hstill, h.activations_eq]
    · rw [hstill]
      exact h.deadline_le

/-- During an excursion an event leaves the highlight alone exactly when it does not go
from one region of the outer owner to another one. -/
theorem undisturbed_iff_staysPut (h : Away inner outer start n c)
    (hbrief : event.IsBrief c.diagram inner outer start
      c.spotlight.settings.activationDelay) :
    c.Undisturbed inner n event ↔ c.StaysPut outer event := by
  rcases h.outcome hbrief with ⟨hactive, hcount, -, hput⟩ | ⟨hactive, hnot⟩
  · exact iff_of_true ⟨hactive, hcount⟩ hput
  · refine iff_of_false ?_ hnot
    rintro ⟨hinner, -⟩
    rw [hactive] at hinner
    exact h.inner_ne_outer (Option.some.inj hinner).symm

/-- An event that leaves the highlight alone goes on with the excursion. -/
theorem Away.after (h : Away inner outer start n c)
    (hbrief : event.IsBrief c.diagram inner outer start
      c.spotlight.settings.activationDelay)
    (hundisturbed : c.Undisturbed inner n event) :
    Away inner outer start n (c.after event) where
  toHosted := h.toHosted.after event
  inner_ne_outer := h.inner_ne_outer
  nested := by
    rw [diagram_after]
    exact h.nested
  inner_registered := by
    rw [isRegistered_after h.sound]
    exact h.inner_registered
  outer_registered := by
    rw [isRegistered_after h.sound]
    exact h.outer_registered
  owner_cases := h.owner_cases_after hbrief.2.2
  active_eq := hundisturbed.1
  activations_eq := hundisturbed.2
  deadline_le := by
    rw [settings_after h.sound]
    rcases h.outcome hbrief with ⟨-, -, hdeadline, -⟩ | ⟨-, hnot⟩
    · exact hdeadline
    · exact absurd ((undisturbed_iff_staysPut h hbrief).mp hundisturbed) hnot

/-! ## Whole excursions -/

/-- An excursion leaves the highlight alone exactly when it never goes from one region of
the outer owner to another one. -/
theorem Away.along_iff (h : Away inner outer start n c) {events : List Event}
    (hbrief : ∀ event ∈ events, event.IsBrief c.diagram inner outer start
      c.spotlight.settings.activationDelay) :
    Along Canvas.after (Undisturbed inner n) c events ↔
      Along Canvas.after (StaysPut outer) c events := by
  induction events generalizing c with
  | nil => exact Iff.rfl
  | cons event rest ih =>
      have hfirst := hbrief event List.mem_cons_self
      have hrest : c.Undisturbed inner n event →
          (Along Canvas.after (Undisturbed inner n) (c.after event) rest ↔
            Along Canvas.after (StaysPut outer) (c.after event) rest) := by
        intro hundisturbed
        apply ih (h.after hfirst hundisturbed)
        intro other hother
        rw [diagram_after, settings_after h.sound]
        exact hbrief other (List.mem_cons_of_mem event hother)
      rw [Along, Along, ← undisturbed_iff_staysPut h hfirst]
      exact and_congr_right hrest

/-- After any events: the pointer rests on a region whose owner holds the highlight with
nothing pending, and goes on an excursion, shorter than the delay, over any regions of
that owner and of the next owner around it.  Then every event leaves the highlight alone
and counts no activation exactly when no event moves the pointer from one region of the
outer owner directly to another one. -/
theorem undisturbed_excursion_iff {opened : Canvas} (hopened : Prepared opened)
    (events : List Event) {inner outer : RegionKey}
    (howner : (opened.play events).owner? = some inner)
    (hactive : (opened.play events).spotlight.active = some inner)
    (hidle : (opened.play events).spotlight.pending? = none)
    (houter : (opened.diagram.parent? inner).bind opened.diagram.owner? = some outer)
    {start : Instant} {excursion : List Event}
    (hbrief : ∀ event ∈ excursion, event.IsBrief opened.diagram inner outer start
      opened.spotlight.settings.activationDelay) :
    let c := opened.play events
    Along after (Undisturbed inner c.spotlight.activations) c excursion ↔
      Along after (StaysPut outer) c excursion := by
  intro c
  have hhosted : Hosted c := hopened.hosted.play events
  rcases Diagram.isWithin_enclosing hopened.hosted.sound houter with ⟨hnested, hne⟩
  rcases Option.bind_eq_some_iff.mp houter with ⟨parent, -, hparent⟩
  rw [← diagram_play opened events] at hnested hparent hbrief
  rw [← settings_play hopened.hosted events] at hbrief
  have haway : Away inner outer start c.spotlight.activations c := by
    refine ⟨hhosted, hne, hnested, hhosted.isRegistered_owner? howner,
      hhosted.isRegistered_owner hparent, Or.inl howner, hactive, rfl, ?_⟩
    intro deadline hdeadline
    rw [Spotlight.deadline?_eq_none_iff.mpr hidle] at hdeadline
    cases hdeadline
  exact haway.along_iff hbrief

/-- Going out to the heading of the outer owner, back, and out to its body leaves the
highlight alone up to the last instant before the delay is over. -/
theorem undisturbed_out_and_back :
    let opened := opening (({} : Diagram).run [.insert none .focusable ⟨0, 0, 200, 200⟩,
      .insert (some (.fresh 1)) .decoration ⟨0, 0, 200, 20⟩,
      .insert (some (.fresh 1)) .focusable ⟨20, 40, 100, 100⟩]) {} [.fresh 1, .fresh 3]
    let c := opened.play [.move (some ⟨35, 55⟩) 0]
    let excursion : List Event := [.move (some ⟨150, 5⟩) 10000000, .tick 50000000,
      .move (some ⟨35, 55⟩) 60000000, .move (some ⟨150, 30⟩) 100000000, .tick 109999999]
    Prepared opened ∧ c.owner? = some (.fresh 3) ∧
      c.spotlight.active = some (.fresh 3) ∧ c.spotlight.pending? = none ∧
      (opened.diagram.parent? (.fresh 3)).bind opened.diagram.owner? = some (.fresh 1) ∧
      (∀ event ∈ excursion, event.IsBrief opened.diagram (.fresh 3) (.fresh 1) 10000000
        opened.spotlight.settings.activationDelay) ∧
      Along after (Undisturbed (.fresh 3) c.spotlight.activations) c excursion := by
  intro opened c excursion
  have hopened : Prepared opened := ⟨⟨_, _, _, rfl⟩, by decide⟩
  have howner : c.owner? = some (.fresh 3) := by decide
  have hactive : c.spotlight.active = some (.fresh 3) := by decide
  have hidle : c.spotlight.pending? = none := by decide
  have houter : (opened.diagram.parent? (.fresh 3)).bind opened.diagram.owner? =
      some (.fresh 1) := by decide
  have hbrief : ∀ event ∈ excursion, event.IsBrief opened.diagram (.fresh 3) (.fresh 1)
      10000000 opened.spotlight.settings.activationDelay := by decide
  have hputs : Along after (StaysPut (.fresh 1)) c excursion := by decide
  exact ⟨hopened, howner, hactive, hidle, houter, hbrief,
    (undisturbed_excursion_iff hopened _ howner hactive hidle houter hbrief).mpr hputs⟩

/-- Going out to the heading of the outer owner and on to its body gives the highlight to
the outer owner long before the delay is over. -/
theorem disturbed_between_two_regions :
    let opened := opening (({} : Diagram).run [.insert none .focusable ⟨0, 0, 200, 200⟩,
      .insert (some (.fresh 1)) .decoration ⟨0, 0, 200, 20⟩,
      .insert (some (.fresh 1)) .focusable ⟨20, 40, 100, 100⟩]) {} [.fresh 1, .fresh 3]
    let c := opened.play [.move (some ⟨35, 55⟩) 0]
    let excursion : List Event := [.move (some ⟨150, 5⟩) 10000000,
      .move (some ⟨150, 30⟩) 20000000]
    Prepared opened ∧ c.owner? = some (.fresh 3) ∧
      c.spotlight.active = some (.fresh 3) ∧ c.spotlight.pending? = none ∧
      (opened.diagram.parent? (.fresh 3)).bind opened.diagram.owner? = some (.fresh 1) ∧
      (∀ event ∈ excursion, event.IsBrief opened.diagram (.fresh 3) (.fresh 1) 10000000
        opened.spotlight.settings.activationDelay) ∧
      ¬ Along after (Undisturbed (.fresh 3) c.spotlight.activations) c excursion ∧
      (c.play excursion).spotlight.active = some (.fresh 1) ∧
      (c.play excursion).spotlight.activations = c.spotlight.activations + 1 :=
  ⟨⟨⟨_, _, _, rfl⟩, by decide⟩, by decide⟩

end Canvas

end NestedHover
