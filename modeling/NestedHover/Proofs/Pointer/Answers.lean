import NestedHover.Proofs.Pointer.Decisions

/-!
# The answers to a move of the pointer

A move of the pointer answers what was decided about each boundary that it crosses.  The
regions on both sides enter only through their owners: the region that is left may even
be gone by then, and it has no owner then.  An owner that decides about the pointer coming
onto one of its own regions never finds that region nested below it, so that question of
the rule is void whenever the owner is found from the region.

Main results:

- Theorem {lit}`Spotlight.fst_followAll_of_isOk`: decisions that are followed without
  failing are answered as they are.
- Theorem {lit}`Diagram.isNested_owner?`: no region is nested below its own owner.
- Theorem {lit}`Canvas.answers_of_owners`: the answers to a move that crosses a boundary.
-/

namespace NestedHover

namespace Spotlight

variable {s : Spotlight} {now : Instant}

/-- Following a decision without failing answers that decision. -/
theorem fst_follow_of_isOk {decision : Decision}
    (hok : (s.follow decision now).1.isOk = true) :
    (s.follow decision now).1 = .ok decision := by
  cases decision with
  | ignored => rfl
  | activate region => rfl
  | activateLater region => exact map_const_of_isOk (by simpa using hok) _
  | deactivateLater region => exact map_const_of_isOk (by simpa using hok) _

/-- Decisions that are followed without failing are answered as they are. -/
theorem fst_followAll_of_isOk {decisions : List Decision}
    (hok : (s.followAll now decisions).1.isOk = true) :
    (s.followAll now decisions).1 = .ok decisions := by
  induction decisions generalizing s with
  | nil => rfl
  | cons decision rest ih =>
      cases hfirst : (s.follow decision now).1.isOk with
      | false =>
          rw [(followAll_cons_of_not_isOk hfirst rest).1] at hok
          cases hok
      | true =>
          rw [(followAll_cons_of_isOk hfirst rest).1] at hok
          have hanswer := fst_follow_of_isOk hfirst
          rw [followAll]
          rcases hfollow : s.follow decision now with ⟨answer, next⟩
          rw [hfollow] at hanswer hok
          cases hanswer
          simp [ih hok, Except.map]

end Spotlight

namespace Diagram

variable {d : Diagram} {key owner : RegionKey}

/-- No region is nested below its own owner. -/
theorem isNested_owner? (hsound : d.Sound) (howner : d.owner? key = some owner) :
    d.isNested key owner = false := by
  rw [Bool.eq_false_iff]
  intro hnested
  rcases (isNested_iff_owner? hsound).mp hnested with ⟨o, ho, hne, -⟩
  rw [howner] at ho
  exact hne (Option.some.inj ho).symm

end Diagram

namespace Pointer

/-- The decisions on the crossings of a move, read off the owners of its two ends. -/
theorem map_decision_moveTo (d : Diagram) (p : Pointer) {hit : Option RegionKey}
    (hmoves : hit ≠ p.hovered) :
    (p.moveTo hit).1.map d.decision =
      (p.hovered.toList.map fun _ =>
          d.leaving (p.hovered.bind d.owner?) (hit.bind d.owner?)) ++
        hit.toList.map fun _ =>
          d.entering (p.hovered.bind d.owner?) (hit.bind d.owner?) := by
  rw [moveTo, if_neg hmoves]
  cases p.hovered <;> cases hit <;> rfl

end Pointer

namespace Canvas

/-- On a diagram that any changes have led to, whatever the pointer rested on before, be it
live or gone: a move to another region that does not fail answers one decision about
leaving, if the pointer rested on something, and then one about entering, if it comes to
rest on something.  Both are those of the law of decisions, which looks at the owners of
the two sides only.  And the question whether the target of a crossing is nested below the
owner that decides about it is never answered yes. -/
theorem answers_of_owners (changes : List Diagram.Operation) {c : Canvas}
    (hreached : c.diagram = ({} : Diagram).run changes) {position : Option Point}
    {now : Instant} (hmoves : position.bind c.diagram.hit? ≠ c.pointer.hovered)
    (hok : (c.movePointer position now).1.isOk = true) :
    let old := c.pointer.hovered
    let new := position.bind c.diagram.hit?
    let source := old.bind c.diagram.owner?
    let target := new.bind c.diagram.owner?
    (c.movePointer position now).1 =
        .ok ((old.toList.map fun _ => c.diagram.leaving source target) ++
          new.toList.map fun _ => c.diagram.entering source target) ∧
      ∀ (crossing : Crossing) (owner : RegionKey),
        crossing.target.bind c.diagram.owner? = some owner →
        (crossing.target.any fun key => c.diagram.isNested key owner) = false := by
  intro old new source target
  have hsound : c.diagram.Sound := hreached ▸ Diagram.sound_run changes
  constructor
  · unfold movePointer at hok ⊢
    simp only [Spotlight.dispatchAll_eq_followAll hsound] at hok ⊢
    rw [Spotlight.fst_followAll_of_isOk hok, Pointer.map_decision_moveTo _ _ hmoves]
  · intro crossing owner howner
    rcases Option.bind_eq_some_iff.mp howner with ⟨key, hkey, hown⟩
    rw [hkey, Option.any_some, Diagram.isNested_owner? hsound hown]

/-- The pointer comes from a heading in a nested region out to the region around it: the
nested region asks to lose the highlight, and the outer one asks for it with a delay. -/
theorem answers_outward :
    let changes : List Diagram.Operation :=
      [.insert none .focusable ⟨0, 0, 200, 200⟩,
        .insert (some (.fresh 1)) .focusable ⟨20, 40, 100, 100⟩,
        .insert (some (.fresh 2)) .decoration ⟨20, 40, 100, 20⟩]
    let c : Canvas :=
      { diagram := ({} : Diagram).run changes
        spotlight := (({} : Spotlight).register (.fresh 1)).register (.fresh 2)
        pointer := ⟨some (.fresh 3)⟩ }
    let position : Option Point := some ⟨150, 5⟩
    position.bind c.diagram.hit? ≠ c.pointer.hovered ∧
      (c.movePointer position 0).1.isOk = true ∧
      (c.movePointer position 0).1 =
        .ok [.deactivateLater (.fresh 2), .activateLater (.fresh 1)] := by
  intro changes c position
  have hmoves : position.bind c.diagram.hit? ≠ c.pointer.hovered := by decide
  have hok : (c.movePointer position 0).1.isOk = true := by decide
  have hanswer := (answers_of_owners changes rfl hmoves hok).1
  refine ⟨hmoves, hok, hanswer.trans (congrArg Except.ok ?_)⟩
  decide

end Canvas

end NestedHover
