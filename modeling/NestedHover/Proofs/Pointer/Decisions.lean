import NestedHover.Canvas
import NestedHover.Proofs.Region.Ownership
import NestedHover.Proofs.Spotlight.Agreement

/-!
# Decisions by owners

A crossing is decided by walks over the regions on both of its sides.  What comes
out depends only on the owners of the two sides: whether one of them is missing,
whether they are the same, and whether one of them lies within the other.  So a
move of the pointer is a transfer from one owner to another, and the spotlight
never learns which of an owner's regions the pointer rests on.

Main results:

- Theorem {lit}`Spotlight.dispatch_eq_follow`: a crossing is decided by the owners
  of its two sides.
- Theorem {lit}`Spotlight.transfer_some_cases`: a transfer to an owner ends with the
  request of that owner, which is delayed only if the owner left lies within it.
- Theorem {lit}`Canvas.movePointer_of_ne`: a move to another region is a transfer
  between the owners of the two regions.
-/

namespace NestedHover

namespace Diagram

variable {d : Diagram} {key owner : RegionKey}

/-! ## The law of decisions -/

/-- What the first owner makes of the pointer going off its region to a region of
the second one. -/
def leaving (d : Diagram) (source target : Option RegionKey) : Decision :=
  match source with
  | none => .ignored
  | some owner =>
      if target.any fun other => d.isWithin other owner then .ignored
      else .deactivateLater owner

/-- What the second owner makes of the pointer coming onto its region from a region
of the first one. -/
def entering (d : Diagram) (source target : Option RegionKey) : Decision :=
  match target with
  | none => .ignored
  | some owner =>
      if source.any fun other => other ≠ owner && d.isWithin other owner then
        .activateLater owner
      else .activate owner

/-- The decision about a crossing, read off the owners of its two sides. -/
def decision (d : Diagram) (c : Crossing) : Decision :=
  match c.kind with
  | .enter => d.entering (c.related.bind d.owner?) (c.target.bind d.owner?)
  | .leave => d.leaving (c.target.bind d.owner?) (c.related.bind d.owner?)

/-- An owner asks for the highlight at once, unless the pointer comes from an owner
strictly within it. -/
theorem entering_some_cases (d : Diagram) (source : Option RegionKey)
    (owner : RegionKey) :
    d.entering source (some owner) = .activate owner ∨
      ∃ left, source = some left ∧ left ≠ owner ∧ d.isWithin left owner = true ∧
        d.entering source (some owner) = .activateLater owner := by
  cases source with
  | none => exact Or.inl rfl
  | some left =>
      by_cases hwithin : left ≠ owner ∧ d.isWithin left owner = true
      · right
        exact ⟨left, rfl, hwithin.1, hwithin.2, by simp [entering, hwithin]⟩
      · left
        simpa [entering] using hwithin

/-- Whether a region lies within an owner is asked of its own owner. -/
theorem any_isWithin_eq (hsound : d.Sound) (howner : d.owner? key = some owner)
    (related : Option RegionKey) :
    (related.any fun other => d.isWithin other owner) =
      (related.bind d.owner?).any fun other => d.isWithin other owner := by
  cases related with
  | none => rfl
  | some other =>
      rw [Option.any_some, Option.bind_some, Bool.eq_iff_iff,
        isWithin_iff_owner? hsound howner]
      cases d.owner? other <;> simp

/-- Whether a region is nested below another one is asked of its owner. -/
theorem any_isNested_eq (hsound : d.Sound) (owner : RegionKey)
    (related : Option RegionKey) :
    (related.any fun other => d.isNested other owner) =
      (related.bind d.owner?).any fun other => other ≠ owner && d.isWithin other owner := by
  cases related with
  | none => rfl
  | some other =>
      rw [Option.any_some, Option.bind_some, Bool.eq_iff_iff, isNested_iff_owner? hsound]
      cases d.owner? other <;> simp

/-- The decision of a target's owner is the one read off the owners. -/
theorem decision_of (hsound : d.Sound) {c : Crossing}
    (howner : c.target.bind d.owner? = some owner) :
    Decision.of d owner c = d.decision c := by
  rcases c with ⟨kind, target, related⟩
  rcases Option.bind_eq_some_iff.mp howner with ⟨key, rfl, hkey⟩
  cases kind with
  | enter =>
      -- the target's owner differs from itself nowhere, so the first question is void
      simp only [Decision.of, decision, entering, any_isNested_eq hsound,
        Option.bind_some, hkey]
      simp
  | leave =>
      simp only [Decision.of, decision, leaving, Option.bind_some, hkey]
      rw [any_isWithin_eq hsound hkey]

/-- Without an owner of the target nothing is decided. -/
theorem decision_eq_ignored {c : Crossing} (h : c.target.bind d.owner? = none) :
    d.decision c = .ignored := by
  rcases c with ⟨kind, target, related⟩
  cases kind <;> simp only [decision, leaving, entering, h]

end Diagram

namespace Spotlight

variable {s : Spotlight} {d : Diagram}

/-! ## Crossings in order -/

/-- A crossing is decided by the owners of its two sides. -/
theorem dispatch_eq_follow (hsound : d.Sound) (s : Spotlight) (c : Crossing)
    (now : Instant) : s.dispatch d c now = s.follow (d.decision c) now := by
  cases howner : c.target.bind d.owner? with
  | none =>
      rw [dispatch_of_owner?_eq_none howner, Diagram.decision_eq_ignored howner]
      rfl
  | some owner =>
      rw [← Diagram.decision_of hsound howner]
      simp [dispatch, howner, handle]

/-- Follows decisions in order, up to the first one that fails. -/
def followAll (s : Spotlight) (now : Instant) :
    List Decision → Except ClockError (List Decision) × Spotlight
  | [] => (.ok [], s)
  | decision :: rest =>
      match s.follow decision now with
      | (.ok decision, next) =>
          let outcome := next.followAll now rest
          (outcome.1.map (decision :: ·), outcome.2)
      | (.error e, next) => (.error e, next)

theorem dispatchAll_eq_followAll (hsound : d.Sound) (s : Spotlight) (now : Instant)
    (crossings : List Crossing) :
    s.dispatchAll d now crossings = s.followAll now (crossings.map d.decision) := by
  induction crossings generalizing s with
  | nil => rfl
  | cons c rest ih =>
      rw [List.map_cons, dispatchAll, followAll, dispatch_eq_follow hsound]
      rcases s.follow (d.decision c) now with ⟨_ | decision, next⟩
      · rfl
      · simp only [ih]

/-! ## Following one decision -/

@[simp] theorem snd_follow_activateLater (s : Spotlight) (region : RegionKey)
    (now : Instant) :
    (s.follow (.activateLater region) now).2 = (s.activateLater region now).2 := rfl

@[simp] theorem snd_follow_deactivateLater (s : Spotlight) (region : RegionKey)
    (now : Instant) :
    (s.follow (.deactivateLater region) now).2 = (s.deactivateLater region now).2 := rfl

@[simp] theorem isOk_follow_activateLater (s : Spotlight) (region : RegionKey)
    (now : Instant) : (s.follow (.activateLater region) now).1.isOk =
      (s.activateLater region now).1.isOk :=
  isOk_map _ _

@[simp] theorem isOk_follow_deactivateLater (s : Spotlight) (region : RegionKey)
    (now : Instant) : (s.follow (.deactivateLater region) now).1.isOk =
      (s.deactivateLater region now).1.isOk :=
  isOk_map _ _

@[simp] theorem isRegistered_follow (s : Spotlight) (decision : Decision) (now : Instant)
    (key : RegionKey) : (s.follow decision now).2.isRegistered key = s.isRegistered key := by
  cases decision <;> simp [follow]

@[simp] theorem settings_follow (s : Spotlight) (decision : Decision) (now : Instant) :
    (s.follow decision now).2.settings = s.settings := by
  cases decision <;> simp [follow]

/-- Following a decision without failing keeps the records in agreement. -/
theorem Coherent.follow (h : Coherent s) {decision : Decision} {now : Instant}
    (hok : (s.follow decision now).1.isOk = true) :
    Coherent (s.follow decision now).2 := by
  cases decision with
  | ignored => exact h
  | activate region => exact h.activate region
  | activateLater region => exact h.activateLater (by simpa using hok)
  | deactivateLater region => exact h.deactivateLater (by simpa using hok)

/-! ## Following several decisions -/

/-- After a decision that does not fail the rest are followed. -/
theorem followAll_cons_of_isOk {decision : Decision} {now : Instant}
    (h : (s.follow decision now).1.isOk = true) (rest : List Decision) :
    (s.followAll now (decision :: rest)).1.isOk =
        ((s.follow decision now).2.followAll now rest).1.isOk ∧
      (s.followAll now (decision :: rest)).2 =
        ((s.follow decision now).2.followAll now rest).2 := by
  rw [followAll]
  rcases hfollow : s.follow decision now with ⟨_ | answer, next⟩
  · rw [hfollow] at h
    cases h
  · exact ⟨by simp, rfl⟩

/-- After a decision that fails the rest are lost. -/
theorem followAll_cons_of_not_isOk {decision : Decision} {now : Instant}
    (h : (s.follow decision now).1.isOk = false) (rest : List Decision) :
    (s.followAll now (decision :: rest)).1.isOk = false ∧
      (s.followAll now (decision :: rest)).2 = (s.follow decision now).2 := by
  rw [followAll]
  rcases hfollow : s.follow decision now with ⟨_ | answer, next⟩
  · exact ⟨rfl, rfl⟩
  · rw [hfollow] at h
    cases h

/-- Following one decision. -/
theorem followAll_singleton (s : Spotlight) (decision : Decision) (now : Instant) :
    (s.followAll now [decision]).1.isOk = (s.follow decision now).1.isOk ∧
      (s.followAll now [decision]).2 = (s.follow decision now).2 := by
  cases hok : (s.follow decision now).1.isOk with
  | true => exact followAll_cons_of_isOk hok []
  | false => exact followAll_cons_of_not_isOk hok []

/-- Leaving a crossing alone before the rest changes nothing. -/
theorem followAll_ignored_cons (s : Spotlight) (rest : List Decision) (now : Instant) :
    (s.followAll now (.ignored :: rest)).1.isOk = (s.followAll now rest).1.isOk ∧
      (s.followAll now (.ignored :: rest)).2 = (s.followAll now rest).2 :=
  followAll_cons_of_isOk rfl rest

/-- Leaving a crossing alone at the end changes nothing. -/
theorem followAll_pair_ignored (s : Spotlight) (decision : Decision) (now : Instant) :
    (s.followAll now [decision, .ignored]).1.isOk = (s.follow decision now).1.isOk ∧
      (s.followAll now [decision, .ignored]).2 = (s.follow decision now).2 := by
  cases hok : (s.follow decision now).1.isOk with
  | true => exact followAll_cons_of_isOk hok [.ignored]
  | false => exact followAll_cons_of_not_isOk hok [.ignored]

/-- What following one decision keeps, whether or not it fails, is kept by following
several. -/
theorem followAll_of_follow {I : Spotlight → Prop} {now : Instant}
    (hkeeps : ∀ t decision, I t → I (t.follow decision now).2) (hstart : I s)
    (decisions : List Decision) : I (s.followAll now decisions).2 := by
  induction decisions generalizing s with
  | nil => exact hstart
  | cons decision rest ih =>
      cases hok : (s.follow decision now).1.isOk with
      | true =>
          rw [(followAll_cons_of_isOk hok rest).2]
          exact ih (hkeeps s decision hstart)
      | false =>
          rw [(followAll_cons_of_not_isOk hok rest).2]
          exact hkeeps s decision hstart

@[simp] theorem isRegistered_followAll (s : Spotlight) (now : Instant)
    (decisions : List Decision) (key : RegionKey) :
    (s.followAll now decisions).2.isRegistered key = s.isRegistered key :=
  followAll_of_follow (I := fun t => t.isRegistered key = s.isRegistered key)
    (fun t decision h => (isRegistered_follow t decision now key).trans h) rfl decisions

@[simp] theorem settings_followAll (s : Spotlight) (now : Instant)
    (decisions : List Decision) : (s.followAll now decisions).2.settings = s.settings :=
  followAll_of_follow (I := fun t => t.settings = s.settings)
    (fun t decision h => (settings_follow t decision now).trans h) rfl decisions

theorem Coherent.followAll (h : Coherent s) {decisions : List Decision} {now : Instant}
    (hok : (s.followAll now decisions).1.isOk = true) :
    Coherent (s.followAll now decisions).2 := by
  induction decisions generalizing s with
  | nil => exact h
  | cons decision rest ih =>
      cases hfirst : (s.follow decision now).1.isOk with
      | true =>
          rw [(followAll_cons_of_isOk hfirst rest).1] at hok
          rw [(followAll_cons_of_isOk hfirst rest).2]
          exact ih (h.follow hfirst) hok
      | false =>
          rw [(followAll_cons_of_not_isOk hfirst rest).1] at hok
          cases hok

/-! ## Transfers between owners -/

/-- Follows what both owners make of a move from a region of the first one to a region
of the second one. -/
def transfer (s : Spotlight) (d : Diagram) (source target : Option RegionKey)
    (now : Instant) : Except ClockError (List Decision) × Spotlight :=
  s.followAll now [d.leaving source target, d.entering source target]

/-- A move between regions without owners does nothing. -/
theorem transfer_none_none (s : Spotlight) (d : Diagram) (now : Instant) :
    (s.transfer d none none now).2 = s := rfl

/-- A move off all owners is a request of the owner that is left. -/
theorem transfer_some_none (s : Spotlight) (d : Diagram) (owner : RegionKey)
    (now : Instant) :
    (s.transfer d (some owner) none now).1.isOk = (s.deactivateLater owner now).1.isOk ∧
      (s.transfer d (some owner) none now).2 = (s.deactivateLater owner now).2 := by
  have hleaving : d.leaving (some owner) none = .deactivateLater owner := rfl
  have hentering : d.entering (some owner) none = .ignored := rfl
  rcases followAll_pair_ignored s (.deactivateLater owner) now with ⟨hanswer, hnext⟩
  unfold transfer
  rw [hleaving, hentering, hanswer, hnext]
  exact ⟨isOk_follow_deactivateLater s owner now, rfl⟩

/-- A transfer to an owner that does not fail ends with the request of that owner,
which is delayed only if the owner left lies strictly within it; before that the owner
left may have asked to lose the highlight. -/
theorem transfer_some_cases {source : Option RegionKey} {owner : RegionKey} {now : Instant}
    (hok : (s.transfer d source (some owner) now).1.isOk = true) :
    ∃ t, (t = s ∨ ∃ left, t = (s.deactivateLater left now).2) ∧
      ((s.transfer d source (some owner) now).2 = (t.activate owner).2 ∨
        ∃ left, source = some left ∧ left ≠ owner ∧ d.isWithin left owner = true ∧
          (t.activateLater owner now).1.isOk = true ∧
          (s.transfer d source (some owner) now).2 = (t.activateLater owner now).2) := by
  unfold transfer at hok ⊢
  cases hfirst : (s.follow (d.leaving source (some owner)) now).1.isOk with
  | false =>
      rw [(followAll_cons_of_not_isOk hfirst _).1] at hok
      cases hok
  | true =>
      obtain ⟨hanswer, hnext⟩ :=
        followAll_cons_of_isOk hfirst [d.entering source (some owner)]
      obtain ⟨hlast, hstate⟩ := followAll_singleton
        (s.follow (d.leaving source (some owner)) now).2 (d.entering source (some owner)) now
      rw [hanswer, hlast] at hok
      rw [hnext, hstate]
      refine ⟨(s.follow (d.leaving source (some owner)) now).2, ?_, ?_⟩
      · cases source with
        | none => exact Or.inl rfl
        | some left =>
            rw [Diagram.leaving]
            split
            · exact Or.inl rfl
            · exact Or.inr ⟨left, rfl⟩
      · rcases d.entering_some_cases source owner with
          hentering | ⟨left, hleft, hne, hwithin, hentering⟩
        · left
          rw [hentering]
          rfl
        · right
          rw [hentering] at hok ⊢
          exact ⟨left, hleft, hne, hwithin, by simpa using hok, rfl⟩

/-- A transfer inward, or within one owner, asks for the highlight at once. -/
theorem transfer_of_isWithin (hsound : d.Sound) {source target : RegionKey}
    (hwithin : d.isWithin target source = true) (s : Spotlight) (now : Instant) :
    (s.transfer d (some source) (some target) now).2 = (s.activate target).2 := by
  have hleaving : d.leaving (some source) (some target) = .ignored := by
    simp [Diagram.leaving, hwithin]
  have hentering : d.entering (some source) (some target) = .activate target := by
    rcases d.entering_some_cases (some source) target with
      hentering | ⟨left, hleft, hne, hout, -⟩
    · exact hentering
    · cases hleft
      exact absurd (Diagram.isWithin_antisymm hsound hout hwithin) hne
  rw [transfer, hleaving, hentering, (followAll_ignored_cons s _ now).2,
    (followAll_singleton s _ now).2]
  rfl

/-- A transfer outward moves no highlight, and whatever it leaves pending has the full
delay before it. -/
theorem transfer_outward (hsound : d.Sound) {source target : RegionKey}
    (hne : source ≠ target) (hwithin : d.isWithin source target = true)
    (hsource : s.isRegistered source = true) (htarget : s.isRegistered target = true)
    (now : Instant) :
    let t := (s.transfer d (some source) (some target) now).2
    t.active = s.active ∧ t.activations = s.activations ∧
      ∀ deadline, t.deadline? = some deadline →
        deadline = now + (s.settings.activationDelay : Int) := by
  have hnot : d.isWithin target source = false := by
    rw [Bool.eq_false_iff]
    intro hback
    exact hne (Diagram.isWithin_antisymm hsound hwithin hback)
  have hleaving : d.leaving (some source) (some target) = .deactivateLater source := by
    simp [Diagram.leaving, hnot]
  have hentering : d.entering (some source) (some target) = .activateLater target := by
    simp [Diagram.entering, hwithin, hne]
  unfold transfer
  rw [hleaving, hentering]
  rcases armed_deactivateLater hsource now with ⟨herror, harmed⟩ | ⟨hok, -⟩
  · rw [← isOk_follow_deactivateLater] at herror
    rw [(followAll_cons_of_not_isOk herror _).2, snd_follow_deactivateLater]
    refine ⟨active_deactivateLater s source now, activations_deactivateLater s source now, ?_⟩
    intro deadline hdeadline
    simp [deadline?, Alarm.deadline?, harmed] at hdeadline
  · rw [← isOk_follow_deactivateLater] at hok
    rw [(followAll_cons_of_isOk hok _).2, (followAll_singleton _ _ now).2,
      snd_follow_deactivateLater, snd_follow_activateLater]
    refine ⟨by simp, by simp, ?_⟩
    intro deadline hdeadline
    have hregistered : (s.deactivateLater source now).2.isRegistered target = true := by
      simpa using htarget
    rcases armed_activateLater hregistered now with harmed | ⟨serial, harmed⟩
    · simp [deadline?, Alarm.deadline?, harmed] at hdeadline
    · rw [settings_deactivateLater] at harmed
      simpa [deadline?, Alarm.deadline?, harmed, eq_comm] using hdeadline

end Spotlight

namespace Canvas

variable {c : Canvas} {position : Option Point} {now : Instant}

/-! ## Moves of the pointer -/

/-- The owner of the region that the pointer rests on. -/
def owner? (c : Canvas) : Option RegionKey := c.pointer.hovered.bind c.diagram.owner?

/-- A move that stays on a region changes nothing. -/
theorem movePointer_of_eq (h : position.bind c.diagram.hit? = c.pointer.hovered) :
    c.movePointer position now = (.ok [], c) := by
  simp [movePointer, h, Pointer.moveTo_hovered, Spotlight.dispatchAll]

/-- A move to another region is a transfer between the owners of the two regions. -/
theorem movePointer_of_ne (hsound : c.diagram.Sound)
    (h : position.bind c.diagram.hit? ≠ c.pointer.hovered) :
    let target := (position.bind c.diagram.hit?).bind c.diagram.owner?
    (c.movePointer position now).1.isOk =
        (c.spotlight.transfer c.diagram c.owner? target now).1.isOk ∧
      (c.movePointer position now).2.spotlight =
        (c.spotlight.transfer c.diagram c.owner? target now).2 := by
  unfold movePointer Spotlight.transfer owner?
  simp only [Spotlight.dispatchAll_eq_followAll hsound]
  generalize position.bind c.diagram.hit? = hit at h ⊢
  rw [Pointer.moveTo, if_neg h]
  cases hhovered : c.pointer.hovered with
  | none =>
      cases hit with
      | none => exact absurd hhovered.symm h
      | some new =>
          exact ⟨(Spotlight.followAll_ignored_cons _ _ _).1.symm,
            (Spotlight.followAll_ignored_cons _ _ _).2.symm⟩
  | some old =>
      cases hit with
      | none =>
          obtain ⟨hone, hstate⟩ := Spotlight.followAll_singleton c.spotlight
            (c.diagram.decision (.leave old none)) now
          obtain ⟨hpair, hpairstate⟩ := Spotlight.followAll_pair_ignored c.spotlight
            (c.diagram.decision (.leave old none)) now
          exact ⟨hone.trans hpair.symm, hstate.trans hpairstate.symm⟩
      | some new => exact ⟨rfl, rfl⟩

end Canvas

end NestedHover
