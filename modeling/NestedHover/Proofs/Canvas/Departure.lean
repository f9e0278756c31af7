import NestedHover.Proofs.Canvas.Events
import Mathlib.Data.List.Induction

/-!
# Leaving the diagram

When the pointer goes off every owner, the owner that it leaves asks to lose the
highlight.  That owner need not be the one that holds it: coming back from a nested
region it may still be waiting.  Its request then cancels its own activation and arms a
deactivation that comes to nothing, and the nested region keeps the highlight for good.
So leaving hides exactly if nothing was pending when the pointer left its last owner.

Main results:

- Theorem {lit}`fading_after_of_left`: after an owner is left, the spotlight is fading
  exactly when nothing was pending.
- Theorem {lit}`fading_play_iff`: the same of a whole run, for the last owner that was
  left in it.
- Theorem {lit}`fading_iff_left_idle`: while the pointer rests on nothing that has an
  owner, the holder of the highlight is about to lose it exactly when nothing was pending
  as the last owner was left; and exactly then everybody is hidden after the deadline.
-/

namespace NestedHover

namespace Canvas

variable {c : Canvas} {events before : List Event} {event : Event}

/-! ## The last departure of a run -/

/-- The pointer went off an owner after the first events of a run and has not come onto
one again. -/
def LeftAfter (c : Canvas) (events before : List Event) : Prop :=
  ∃ event rest, events = before ++ event :: rest ∧ (c.play before).owner?.isSome = true ∧
    ∀ middle, middle <+: rest → (c.play (before ++ event :: middle)).owner? = none

/-- The ways to split a list that ends with a given element. -/
theorem concat_eq_append_cons {α : Type} {xs before rest : List α} {x y : α}
    (h : xs ++ [x] = before ++ y :: rest) :
    (xs = before ∧ x = y ∧ rest = []) ∨
      ∃ front, rest = front ++ [x] ∧ xs = before ++ y :: front := by
  rcases List.eq_nil_or_concat' rest with rfl | ⟨front, z, rfl⟩
  · rcases List.append_inj' h rfl with ⟨hxs, hx⟩
    exact Or.inl ⟨hxs, (List.cons.inj hx).1, rfl⟩
  · rw [← List.cons_append, ← List.append_assoc] at h
    rcases List.append_inj' h rfl with ⟨hxs, hx⟩
    rcases List.cons.inj hx with ⟨rfl, -⟩
    exact Or.inr ⟨front, rfl, hxs⟩

theorem not_leftAfter_nil : ¬ LeftAfter c [] before := by
  rintro ⟨event, rest, h, -⟩
  cases before <;> cases h

/-- An event that takes the pointer off its owner is the last departure. -/
theorem leftAfter_concat_of_isSome (howned : (c.play events).owner?.isSome = true)
    (hgone : (c.play (events ++ [event])).owner? = none) :
    LeftAfter c (events ++ [event]) before ↔ before = events := by
  constructor
  · rintro ⟨first, rest, hsplit, -, hnone⟩
    rcases concat_eq_append_cons hsplit with ⟨rfl, -, -⟩ | ⟨front, rfl, rfl⟩
    · rfl
    · -- the pointer would have come onto an owner again before the last event
      rw [hnone front (List.prefix_append front [event])] at howned
      cases howned
  · rintro rfl
    refine ⟨event, [], rfl, howned, ?_⟩
    intro middle hmiddle
    rw [List.prefix_nil.mp hmiddle]
    exact hgone

/-- An event without an owner under the pointer before and after it leaves the last
departure. -/
theorem leftAfter_concat_of_eq_none (hnone : (c.play events).owner? = none)
    (hgone : (c.play (events ++ [event])).owner? = none) :
    LeftAfter c (events ++ [event]) before ↔ LeftAfter c events before := by
  constructor
  · rintro ⟨first, rest, hsplit, howned, hrest⟩
    rcases concat_eq_append_cons hsplit with ⟨rfl, -, -⟩ | ⟨front, rfl, rfl⟩
    · rw [hnone] at howned
      cases howned
    · exact ⟨first, front, rfl, howned, fun middle hmiddle =>
        hrest middle (hmiddle.trans (List.prefix_append front [event]))⟩
  · rintro ⟨first, rest, rfl, howned, hrest⟩
    refine ⟨first, rest ++ [event], by simp, howned, ?_⟩
    intro middle hmiddle
    rcases List.prefix_concat_iff.mp hmiddle with rfl | hmiddle
    · simpa using hgone
    · exact hrest middle hmiddle

/-! ## What one event does to a fading spotlight -/

/-- After an owner is left, the spotlight is fading exactly when nothing was pending. -/
theorem fading_after_of_left (h : Attended c) (hok : c.Succeeds event) {owner : RegionKey}
    (howner : c.owner? = some owner) (hgone : (c.after event).owner? = none) :
    (c.after event).spotlight.Fading ↔ c.spotlight.pending? = none := by
  rcases after_cases h.sound event with hsame | ⟨-, hanswer, hstate⟩ | htick
  · rw [hsame, howner] at hgone
    cases hgone
  · rw [howner, hgone] at hanswer hstate
    obtain ⟨hrequest, hnext⟩ :=
      Spotlight.transfer_some_none c.spotlight c.diagram owner event.now
    rw [hstate, hnext]
    exact Spotlight.fading_deactivateLater_iff (h.settled owner howner)
      (h.held (howner ▸ rfl)) (h.toHosted.isRegistered_owner? howner)
      (hrequest ▸ hanswer ▸ hok)
  · rw [htick] at hgone
    exact absurd (howner.symm.trans hgone) nofun

/-- Without an owner under the pointer nothing decides anew whether the spotlight is
fading. -/
theorem fading_after_of_eq_none (h : Attended c) (hnone : c.owner? = none)
    (hgone : (c.after event).owner? = none) :
    (c.after event).spotlight.Fading ↔ c.spotlight.Fading := by
  rcases after_cases h.sound event with hsame | ⟨-, -, hstate⟩ | htick
  · rw [hsame]
  · rw [hnone, hgone, Spotlight.transfer_none_none] at hstate
    rw [hstate]
  · rw [htick]
    exact Spotlight.fading_tick_iff (h.unclaimed hnone) event.now

/-! ## Runs -/

/-- After a run that ends without an owner under the pointer, the spotlight is fading
exactly when nothing was pending as the last owner was left. -/
theorem fading_play_iff (h : Attended c) (hfresh : c.spotlight.active = none)
    (hok : Along after Succeeds c events) (hgone : (c.play events).owner? = none) :
    (c.play events).spotlight.Fading ↔
      ∀ before, LeftAfter c events before → (c.play before).spotlight.pending? = none := by
  induction events using List.reverseRecOn with
  | nil =>
      refine iff_of_true ?_ fun before hleft => absurd hleft not_leftAfter_nil
      intro region hregion
      rw [play_nil, hfresh] at hregion
      cases hregion
  | append_singleton events event ih =>
      rcases along_append.mp hok with ⟨hbefore, hlast, -⟩
      have hattended : Attended (c.play events) := h.play hbefore
      have hafter := hgone
      rw [play_concat] at hafter
      rw [play_concat]
      cases howner : (c.play events).owner? with
      | none =>
          rw [fading_after_of_eq_none hattended howner hafter, ih hbefore howner]
          exact forall_congr' fun before =>
            imp_congr_left (leftAfter_concat_of_eq_none howner hgone).symm
      | some owner =>
          rw [fading_after_of_left hattended hlast howner hafter]
          have howned : (c.play events).owner?.isSome = true := howner ▸ rfl
          constructor
          · intro hidle before hleft
            rwa [(leftAfter_concat_of_isSome howned hgone).mp hleft]
          · intro hidle
            exact hidle events ((leftAfter_concat_of_isSome howned hgone).mpr rfl)

/-- After any events none of which failed: while the pointer rests on nothing that has an
owner, the holder of the highlight is about to lose it exactly when nothing was pending
as the pointer left its last owner; and exactly then, once the deadline is reached, nobody
holds the highlight and everybody is hidden. -/
theorem fading_iff_left_idle {start : Canvas} (hstart : Prepared start)
    {events : List Event} (hok : Along after Succeeds start events)
    (hgone : (start.play events).owner? = none) :
    let s := (start.play events).spotlight
    (s.Fading ↔ ∀ before, LeftAfter start events before →
        (start.play before).spotlight.pending? = none) ∧
      ∀ now, (∀ deadline, s.deadline? = some deadline → deadline ≤ now) →
        (s.Fading ↔ (s.tick now).2.active = none ∧
          ∀ region, (s.tick now).2.highlight region = .hidden) := by
  intro s
  have hend : Attended (start.play events) := hstart.attended.play hok
  refine ⟨fading_play_iff hstart.attended hstart.blank.active_eq hok hgone, ?_⟩
  intro now hdeadline
  exact Spotlight.fading_iff_dark_tick hend.coherent (hend.unclaimed hgone) hdeadline

/-- Leaving the diagram from an outer region that has taken over the highlight from the
region nested in it hides everything. -/
theorem fading_after_handover :
    let start := opening (({} : Diagram).run [.insert none .focusable ⟨0, 0, 200, 200⟩,
      .insert (some (.fresh 1)) .focusable ⟨20, 40, 100, 100⟩]) {} [.fresh 1, .fresh 2]
    let handover : List Event := [.move (some ⟨35, 55⟩) 0, .move (some ⟨150, 5⟩) 10000000,
      .tick 110000000]
    let c := start.play (handover ++ [.move none 120000000])
    Prepared start ∧ Along after Succeeds start (handover ++ [.move none 120000000]) ∧
      c.owner? = none ∧ c.spotlight.active = some (.fresh 1) ∧ c.spotlight.Fading ∧
      ∀ region, (c.spotlight.tick 220000000).2.highlight region = .hidden := by
  intro start handover c
  have hstart : Prepared start := ⟨⟨_, _, _, rfl⟩, by decide⟩
  have hok : Along after Succeeds start (handover ++ [.move none 120000000]) := by decide
  have hgone : c.owner? = none := by decide
  rcases fading_iff_left_idle hstart hok hgone with ⟨hfading, hdark⟩
  have hidle : c.spotlight.Fading := by
    apply hfading.mpr
    intro before hleft
    have hbefore : before = handover :=
      (leftAfter_concat_of_isSome (by decide) hgone).mp hleft
    rw [hbefore]
    decide
  have hdeadline : ∀ deadline, c.spotlight.deadline? = some deadline →
      deadline ≤ 220000000 := by
    intro deadline hdeadline
    have harmed : c.spotlight.deadline? = some 220000000 := by decide
    rw [harmed] at hdeadline
    cases hdeadline
    exact Int.le_refl _
  exact ⟨hstart, hok, hgone, by decide, hidle, ((hdark _ hdeadline).mp hidle).2⟩

/-- Leaving the diagram from an outer region that is still waiting for the highlight
leaves it on the region nested there, with the deactivation of the wrong region pending,
and time does not change that. -/
theorem highlight_stays_after_leaving :
    let start := opening (({} : Diagram).run [.insert none .focusable ⟨0, 0, 200, 200⟩,
      .insert (some (.fresh 1)) .focusable ⟨20, 40, 100, 100⟩]) {} [.fresh 1, .fresh 2]
    let events : List Event := [.move (some ⟨35, 55⟩) 0, .move (some ⟨150, 5⟩) 10000000,
      .move none 20000000]
    let c := start.play events
    Prepared start ∧ Along after Succeeds start events ∧ c.pointer.hovered = none ∧
      c.spotlight.active = some (.fresh 2) ∧
      c.spotlight.pending? = some (.deactivate (.fresh 1)) ∧ ¬ c.spotlight.Fading ∧
      c.spotlight.deadline? = some 120000000 ∧
      (c.spotlight.tick 120000000).2.active = some (.fresh 2) ∧
      (c.spotlight.tick 120000000).2.highlight (.fresh 2) = .active ∧
      (c.spotlight.tick 120000000).2.pending? = none :=
  ⟨⟨⟨_, _, _, rfl⟩, by decide⟩, by decide⟩

end Canvas

end NestedHover
