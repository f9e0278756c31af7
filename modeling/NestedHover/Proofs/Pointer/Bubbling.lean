import NestedHover.Proofs.Pointer.Answers
import NestedHover.Proofs.Region.Enclosure

/-!
# Crossings that bubble up

A crossing is delivered to the owner of its target and stops there.  It could just as well
travel on and be handed to every focusable region at or above the target, the nearest one
first: when the pointer comes onto a region, each of these but the owner finds the target
nested below itself and leaves the crossing alone.  So the rule by which a region decides and
the rule by which a crossing is delivered say the same, and either one of them would do.

Main results:

- Theorem {lit}`Diagram.bubbles_iff`: there is one way for a crossing to bubble up.
- Theorem {lit}`Diagram.decision_enter_eq_ignored_iff`: of the regions on that way only the
  owner of the target reacts to an entry.
- Theorem {lit}`Spotlight.handleAll_of_forall_ignored`: regions that leave a crossing alone
  change nothing.
- Theorem {lit}`Spotlight.bubbling_entry_eq_dispatch`: an entry that bubbles up does what it
  does to the owner alone.
-/

namespace NestedHover

namespace Diagram

variable {d : Diagram} {key handler owner : RegionKey}

/-! ## The regions that a crossing bubbles through -/

/-- The focusable regions at or above a region, the nearest one first. -/
def handlers (d : Diagram) (key : RegionKey) : List RegionKey :=
  ((d.ancestors key).filter Region.isFocusable).map Region.key

/-- A list of all focusable regions at or above a region, without repetition and from the
inside to the outside. -/
structure Bubbles (d : Diagram) (key : RegionKey) (way : List RegionKey) : Prop where
  mem_iff : ∀ handler, handler ∈ way ↔
    d.kind? handler = some .focusable ∧ d.isWithin key handler = true
  pairwise : way.Pairwise fun inner outer => inner ≠ outer ∧ d.isWithin inner outer = true

/-- The way up leads from the inside to the outside. -/
theorem pairwise_ancestors (hsound : d.Sound) (key : RegionKey) :
    (d.ancestors key).Pairwise fun r q => d.isWithin r.key q.key = true := by
  -- every rest of the way up is the way up of its first region
  have hrest : ∀ before after, d.ancestors key = before ++ after →
      after.Pairwise fun r q => d.isWithin r.key q.key = true := by
    intro before after hsplit
    induction after generalizing before with
    | nil => exact List.Pairwise.nil
    | cons r rest ih =>
        refine List.pairwise_cons.mpr ⟨?_, ih (before ++ [r]) (by simp [hsplit])⟩
        intro q hq
        have hmem : q ∈ d.ancestors r.key := by
          rw [ancestors_of_append hsound hsplit]
          exact List.mem_cons_of_mem r hq
        exact List.any_eq_true.mpr ⟨q, hmem, by simp⟩
  exact hrest [] (d.ancestors key) rfl

/-- The nearest focusable region is the owner. -/
theorem head?_handlers (d : Diagram) (key : RegionKey) :
    (d.handlers key).head? = d.owner? key := by
  rw [handlers, List.head?_map, List.head?_filter, owner?]

theorem mem_handlers_iff (hsound : d.Sound) :
    handler ∈ d.handlers key ↔
      d.kind? handler = some .focusable ∧ d.isWithin key handler = true := by
  rw [handlers, List.mem_map]
  constructor
  · rintro ⟨r, hr, rfl⟩
    rcases List.mem_filter.mp hr with ⟨hup, hfocusable⟩
    exact ⟨(kind?_eq_focusable_iff hsound (mem_regions_of_mem_ancestors hup)).mpr hfocusable,
      List.any_eq_true.mpr ⟨r, hup, by simp⟩⟩
  · rintro ⟨hfocusable, hwithin⟩
    rcases isWithin_iff_exists_append.mp hwithin with ⟨before, r, after, hsplit, rfl⟩
    have hup : r ∈ d.ancestors key := by simp [hsplit]
    rw [kind?_eq_focusable_iff hsound (mem_regions_of_mem_ancestors hup)] at hfocusable
    exact ⟨r, List.mem_filter.mpr ⟨hup, hfocusable⟩, rfl⟩

theorem bubbles_handlers (hsound : d.Sound) (key : RegionKey) :
    d.Bubbles key (d.handlers key) where
  mem_iff _ := mem_handlers_iff hsound
  pairwise := by
    have hdistinct := List.pairwise_map.mp (nodup_ancestors hsound key)
    exact List.pairwise_map.mpr
      ((hdistinct.and (pairwise_ancestors hsound key)).filter Region.isFocusable)

/-- There is one way for a crossing to bubble up. -/
theorem bubbles_iff (hsound : d.Sound) {way : List RegionKey} :
    d.Bubbles key way ↔ way = d.handlers key := by
  constructor
  · intro h
    have hhandlers := bubbles_handlers hsound key
    have hperm : way.Perm (d.handlers key) := by
      refine (List.perm_ext_iff_of_nodup (h.pairwise.imp And.left)
        (hhandlers.pairwise.imp And.left)).mpr fun handler => ?_
      rw [h.mem_iff, hhandlers.mem_iff]
    refine hperm.eq_of_pairwise ?_ h.pairwise hhandlers.pairwise
    intro inner outer _ _ hinner houter
    exact isWithin_antisymm hsound hinner.2 houter.2
  · rintro rfl
    exact bubbles_handlers hsound key

/-- The owner stands first on the way and nowhere else. -/
theorem exists_handlers_eq_cons (hsound : d.Sound) (howner : d.owner? key = some owner) :
    ∃ outer, d.handlers key = owner :: outer ∧ owner ∉ outer := by
  have hnearest : (d.handlers key).head? = some owner := (d.head?_handlers key).trans howner
  rcases List.head?_eq_some_iff.mp hnearest with ⟨outer, hhandlers⟩
  refine ⟨outer, hhandlers, ?_⟩
  have hpairwise := (bubbles_handlers hsound key).pairwise
  rw [hhandlers] at hpairwise
  intro hagain
  exact ((List.pairwise_cons.mp hpairwise).1 owner hagain).1 rfl

/-! ## Who reacts to an entry -/

/-- A region on the way finds the target nested below itself exactly when it is not the owner
of the target. -/
theorem isNested_handler_iff (hsound : d.Sound) (howner : d.owner? key = some owner)
    (hhandler : handler ∈ d.handlers key) : d.isNested key handler = true ↔ handler ≠ owner := by
  rcases (mem_handlers_iff hsound).mp hhandler with ⟨hfocusable, hwithin⟩
  constructor
  · rintro hnested rfl
    rw [isNested_owner? hsound howner] at hnested
    cases hnested
  · intro hne
    have hleast := (owner?_eq_some_iff_isLeastFocusable hsound).mp howner
    exact (isNested_iff_owner? hsound).mpr
      ⟨owner, howner, hne.symm, hleast.least handler hfocusable hwithin⟩

/-- Of the regions on the way of an entry only the owner of the target reacts. -/
theorem decision_enter_eq_ignored_iff (hsound : d.Sound) (howner : d.owner? key = some owner)
    (hhandler : handler ∈ d.handlers key) (related : Option RegionKey) :
    Decision.of d handler (.enter key related) = .ignored ↔ handler ≠ owner := by
  rw [← isNested_handler_iff hsound howner hhandler]
  cases hnested : d.isNested key handler with
  | true => simp [Decision.of, Crossing.enter, hnested]
  | false =>
      -- whether the highlight is asked for now or later, it is asked for
      cases hinside : related.any fun other => d.isNested other handler with
      | true => simp [Decision.of, Crossing.enter, hnested, hinside]
      | false => simp [Decision.of, Crossing.enter, hnested, hinside]

end Diagram

namespace Spotlight

variable {s : Spotlight} {d : Diagram} {c : Crossing} {now : Instant}

/-! ## Handing a crossing to several regions -/

/-- Has regions handle the same crossing in order, up to the first one that fails. -/
def handleAll (s : Spotlight) (d : Diagram) (c : Crossing) (now : Instant) :
    List RegionKey → Except ClockError (List Decision) × Spotlight
  | [] => (.ok [], s)
  | handler :: rest =>
      match s.handle d handler c now with
      | (.ok decision, next) =>
          let outcome := next.handleAll d c now rest
          (outcome.1.map (decision :: ·), outcome.2)
      | (.error e, next) => (.error e, next)

/-- Regions that leave a crossing alone change nothing. -/
theorem handleAll_of_forall_ignored {handlers : List RegionKey}
    (h : ∀ handler ∈ handlers, Decision.of d handler c = .ignored) :
    s.handleAll d c now handlers = (.ok (handlers.map fun _ => .ignored), s) := by
  induction handlers with
  | nil => rfl
  | cons handler rest ih =>
      rcases List.forall_mem_cons.mp h with ⟨hhandler, hrest⟩
      simp [handleAll, handle, hhandler, follow, ih hrest, Except.map]

/-- If all but the first region leave a crossing alone, what happens is up to that one. -/
theorem handleAll_cons_of_forall_ignored {owner : RegionKey} {outer : List RegionKey}
    (h : ∀ handler ∈ outer, Decision.of d handler c = .ignored) :
    s.handleAll d c now (owner :: outer) =
      ((s.handle d owner c now).1.map fun decision => decision :: outer.map fun _ => .ignored,
        (s.handle d owner c now).2) := by
  rw [handleAll]
  rcases s.handle d owner c now with ⟨_ | decision, next⟩
  · rfl
  · simp [handleAll_of_forall_ignored h, Except.map]

/-- After every run of changes, for an entry onto any region that has an owner, from wherever
the pointer comes, and for every spotlight: there is one way for the entry to bubble up, and
the owner of the target stands first on it.  That one never leaves the entry alone and all
others do.  So handing the entry to all of them, one after the other, answers what delivering
it to the owner answers, with nothing added but that the others have left it alone, and leaves
the spotlight in the same state; if the clock fails the owner, both fail alike. -/
theorem bubbling_entry_eq_dispatch (changes : List Diagram.Operation)
    {target owner : RegionKey}
    (howner : (({} : Diagram).run changes).owner? target = some owner)
    (related : Option RegionKey) (s : Spotlight) (now : Instant) :
    let d := ({} : Diagram).run changes
    let entry := Crossing.enter target related
    ∃ outer,
      (∀ way, d.Bubbles target way ↔ way = owner :: outer) ∧
        (∀ handler ∈ owner :: outer,
          Decision.of d handler entry = .ignored ↔ handler ≠ owner) ∧
        (s.handleAll d entry now (owner :: outer)).1 =
          (s.dispatch d entry now).1.map
            (fun decision => decision :: outer.map fun _ => .ignored) ∧
        (s.handleAll d entry now (owner :: outer)).2 = (s.dispatch d entry now).2 := by
  intro d entry
  have hsound : d.Sound := Diagram.sound_run changes
  rcases Diagram.exists_handlers_eq_cons hsound howner with ⟨outer, hhandlers, hdistinct⟩
  have hdecision : ∀ handler ∈ owner :: outer,
      Decision.of d handler entry = .ignored ↔ handler ≠ owner := by
    rw [← hhandlers]
    intro handler hhandler
    exact Diagram.decision_enter_eq_ignored_iff hsound howner hhandler related
  have hignored : ∀ handler ∈ outer, Decision.of d handler entry = .ignored := by
    intro handler hhandler
    refine (hdecision handler (List.mem_cons_of_mem owner hhandler)).mpr ?_
    rintro rfl
    exact hdistinct hhandler
  have hdispatch : s.dispatch d entry now = s.handle d owner entry now := by
    simp [dispatch, entry, Crossing.enter, howner, d]
  refine ⟨outer, ?_, hdecision, ?_, ?_⟩
  · intro way
    rw [← hhandlers]
    exact Diagram.bubbles_iff hsound
  · rw [handleAll_cons_of_forall_ignored hignored, hdispatch]
  · rw [handleAll_cons_of_forall_ignored hignored, hdispatch]

/-- The pointer comes onto a heading in the innermost of three regions, from a region that is
gone by then.  The innermost one takes the highlight at once, and the outer two, with a shape
between them, leave the entry alone. -/
theorem bubbling_entry_through_decoration :
    let outermost := RegionKey.fresh 1
    let shape := RegionKey.fresh 2
    let middle := RegionKey.fresh 3
    let innermost := RegionKey.fresh 4
    let heading := RegionKey.fresh 5
    let gone := RegionKey.fresh 6
    let changes : List Diagram.Operation :=
      [.insert none .focusable ⟨0, 0, 200, 200⟩,
        .insert (some outermost) .decoration ⟨10, 10, 180, 180⟩,
        .insert (some shape) .focusable ⟨20, 20, 160, 160⟩,
        .insert (some middle) .focusable ⟨30, 30, 140, 140⟩,
        .insert (some innermost) .decoration ⟨40, 40, 100, 10⟩,
        .insert (some innermost) .focusable ⟨40, 60, 100, 10⟩, .remove gone]
    let d := ({} : Diagram).run changes
    let s := ((({} : Spotlight).register outermost).register middle).register innermost
    let entry := Crossing.enter heading (some gone)
    let way := [innermost, middle, outermost]
    d.owner? heading = some innermost ∧ d.Bubbles heading way ∧
      Decision.of d middle entry = .ignored ∧
      (s.handleAll d entry 0 way).1 = .ok [.activate innermost, .ignored, .ignored] ∧
      (s.handleAll d entry 0 way).2.active = some innermost := by
  intro outermost shape middle innermost heading gone changes d s entry way
  have howner : d.owner? heading = some innermost := by decide
  have hbubbles : d.Bubbles heading way :=
    (Diagram.bubbles_iff (Diagram.sound_run changes)).mpr (by decide)
  have hdispatch : (s.dispatch d entry 0).1 = .ok (.activate innermost) := by decide
  have hactive : (s.dispatch d entry 0).2.active = some innermost := by decide
  obtain ⟨outer, hway, hdecision, hanswer, hstate⟩ :=
    bubbling_entry_eq_dispatch changes howner (some gone) s 0
  obtain rfl : [middle, outermost] = outer := (List.cons.inj ((hway way).mp hbubbles)).2
  refine ⟨howner, hbubbles, (hdecision middle (by simp)).mpr (by decide), ?_, ?_⟩
  · rw [hanswer, hdispatch]
    rfl
  · rw [hstate, hactive]

end Spotlight

end NestedHover
