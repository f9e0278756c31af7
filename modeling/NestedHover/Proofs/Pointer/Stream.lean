import NestedHover.Pointer.Crossing
import NestedHover.Proofs.Runs

/-!
# The stream of crossings

Whoever listens to a pointer sees the crossings that its calls answer, and knows which
regions it was told to forget.  These signs, in order, form a stream.  A listener that
notes the region entered last, until it is left or forgotten, knows at any time what the
pointer rests on.

The stream is balanced.  The pointer leaves only the region that it rests on, and enters a
region only while it rests on none; so between two entries into one region that region was
left or forgotten.

Main results:

- Theorem {lit}`foldl_follow_stream`: following the stream of a run leads from what the
  pointer rests on before the run to what it rests on afterwards.
- Theorem {lit}`along_fits_stream`: every sign of the stream fits what has been noted by
  then.
- Theorem {lit}`crossing_of_perform`: every crossing that a call answers, with the region on
  its other side.
- Theorem {lit}`stream_balanced`: all of this for a fresh pointer.
-/

namespace NestedHover

/-- The region that a crossing leaves. -/
def Crossing.left? (c : Crossing) : Option RegionKey := if c.isEntry then none else c.target

namespace Pointer

/-! ## Runs of a pointer -/

/-- A call that moves a pointer or makes it forget. -/
inductive Call where
  | moveTo (hit : Option RegionKey)
  | leave
  | forget (region : RegionKey)
deriving DecidableEq, Repr

/-- The region that a call moves the pointer to. -/
def Call.hit? : Call → Option RegionKey
  | .moveTo hit => hit
  | .leave => none
  | .forget _ => none

/-- Carries out one call, and answers the crossings in order. -/
def perform (p : Pointer) : Call → List Crossing × Pointer
  | .moveTo hit => p.moveTo hit
  | .leave => p.leave
  | .forget region => ([], p.forget region)

/-- The pointer after one call. -/
def step (p : Pointer) (call : Call) : Pointer := (p.perform call).2

/-- The pointer after a sequence of calls. -/
def run (p : Pointer) (calls : List Call) : Pointer := calls.foldl step p

/-! ## Signs -/

/-- What a listener learns from a pointer. -/
inductive Sign where
  | crossing (crossing : Crossing)
  | forgotten (region : RegionKey)
deriving DecidableEq, Repr

/-- What a listener takes the pointer to rest on after one more sign. -/
def Sign.follow (told : Option RegionKey) : Sign → Option RegionKey
  | .crossing ⟨.enter, target, _⟩ => target
  | .crossing ⟨.leave, _, _⟩ => none
  | .forgotten region => told.filter fun key => key ≠ region

/-- A sign that fits what a listener has noted: what is left is what the pointer was taken
to rest on, and a region is entered only from outside all regions. -/
def Sign.Fits (told : Option RegionKey) : Sign → Prop
  | .crossing ⟨.enter, target, _⟩ => told = none ∧ target.isSome
  | .crossing ⟨.leave, target, _⟩ => told = target ∧ target.isSome
  | .forgotten _ => True

/-- The signs that a call gives. -/
def signs (p : Pointer) : Call → List Sign
  | .forget region => [.forgotten region]
  | call => (p.perform call).1.map Sign.crossing

/-- The signs that a run gives, in order. -/
def stream (p : Pointer) (calls : List Call) : List Sign := gathered step signs p calls

variable {p : Pointer} {call : Call} {region : RegionKey} {hovered hit : Option RegionKey}
  {crossings : List Crossing}

/-! ## The crossings of one call -/

/-- What is crossed on the way from one region, or from outside all of them, to another. -/
inductive Crosses : Option RegionKey → Option RegionKey → List Crossing → Prop where
  | nothing (hovered : Option RegionKey) : Crosses hovered hovered []
  | inward (new : RegionKey) : Crosses none (some new) [.enter new none]
  | outward (old : RegionKey) : Crosses (some old) none [.leave old none]
  | between (old new : RegionKey) :
      Crosses (some old) (some new) [.leave old (some new), .enter new (some old)]

theorem crosses_moveTo (p : Pointer) (hit : Option RegionKey) :
    Crosses p.hovered hit (p.moveTo hit).1 := by
  rcases p with ⟨hovered⟩
  by_cases hstays : hit = hovered
  · subst hstays
    rw [moveTo_hovered]
    exact .nothing hit
  · cases hovered with
    | none =>
        cases hit with
        | none => exact absurd rfl hstays
        | some new => exact .inward new
    | some old =>
        cases hit with
        | none => exact .outward old
        | some new =>
            have hmoved : (Pointer.mk (some old)).moveTo (some new) =
                ([.leave old (some new), .enter new (some old)], ⟨some new⟩) := by
              rw [moveTo, if_neg hstays]
              rfl
            rw [hmoved]
            exact .between old new

/-- A call forgets a region and crosses nothing, or it moves the pointer. -/
theorem perform_cases (p : Pointer) (call : Call) :
    (∃ region, call = .forget region ∧ p.perform call = ([], p.forget region)) ∨
      (Crosses p.hovered call.hit? (p.perform call).1 ∧
        (p.step call).hovered = call.hit? ∧
        p.signs call = (p.perform call).1.map Sign.crossing) := by
  cases call with
  | moveTo hit => exact Or.inr ⟨crosses_moveTo p hit, hovered_moveTo p hit, rfl⟩
  | leave => exact Or.inr ⟨crosses_moveTo p none, hovered_moveTo p none, rfl⟩
  | forget region => exact Or.inl ⟨region, rfl, rfl⟩

/-- What is crossed leads from the one region to the other. -/
theorem Crosses.foldl_follow (h : Crosses hovered hit crossings) :
    (crossings.map Sign.crossing).foldl Sign.follow hovered = hit := by
  cases h <;> rfl

/-- Every crossing on the way fits what has been noted by then. -/
theorem Crosses.along_fits (h : Crosses hovered hit crossings) :
    Along Sign.follow Sign.Fits hovered (crossings.map Sign.crossing) := by
  cases h with
  | nothing => trivial
  | inward new => exact ⟨⟨rfl, rfl⟩, trivial⟩
  | outward old => exact ⟨⟨rfl, rfl⟩, trivial⟩
  | between old new => exact ⟨⟨rfl, rfl⟩, ⟨rfl, rfl⟩, trivial⟩

/-- Every crossing on the way leaves what the pointer is taken to rest on by then, or enters
the other region from outside all of them. -/
theorem Crosses.crossing_cases {before after : List Crossing} {crossing : Crossing}
    (h : Crosses hovered hit (before ++ crossing :: after)) :
    let told := (before.map Sign.crossing).foldl Sign.follow hovered
    (∃ old, told = some old ∧ crossing = .leave old hit) ∨
      ∃ new, told = none ∧ hit = some new ∧
        crossing = .enter new (before.getLast?.bind Crossing.left?) := by
  generalize hall : before ++ crossing :: after = crossings at h
  cases h with
  | nothing => simp at hall
  | inward new =>
      obtain ⟨rfl, rfl, rfl⟩ : before = [] ∧ crossing = .enter new none ∧ after = [] := by
        simpa [List.append_eq_singleton_iff] using hall
      exact Or.inr ⟨new, rfl, rfl, rfl⟩
  | outward old =>
      obtain ⟨rfl, rfl, rfl⟩ : before = [] ∧ crossing = .leave old none ∧ after = [] := by
        simpa [List.append_eq_singleton_iff] using hall
      exact Or.inl ⟨old, rfl, rfl⟩
  | between old new =>
      rcases List.append_eq_cons_iff.mp hall with ⟨rfl, hfirst⟩ | ⟨rest, rfl, hrest⟩
      · cases hfirst
        exact Or.inl ⟨old, rfl, rfl⟩
      · obtain ⟨rfl, rfl, rfl⟩ :
            rest = [] ∧ crossing = .enter new (some old) ∧ after = [] := by
          simpa [List.append_eq_singleton_iff] using hrest.symm
        exact Or.inr ⟨new, rfl, rfl, rfl⟩

/-- A crossing that a call answers leaves what the pointer is taken to rest on by then, for
the region that the call moves to; or it enters that region from outside all regions, and
names the one that the crossing just before it has left. -/
theorem crossing_of_perform {before after : List Crossing} {crossing : Crossing}
    (h : (p.perform call).1 = before ++ crossing :: after) :
    let told := (before.map Sign.crossing).foldl Sign.follow p.hovered
    (∃ old, told = some old ∧ crossing = .leave old call.hit?) ∨
      ∃ new, told = none ∧ call.hit? = some new ∧
        crossing = .enter new (before.getLast?.bind Crossing.left?) := by
  rcases perform_cases p call with ⟨region, rfl, hnothing⟩ | ⟨hcrosses, -, -⟩
  · rw [hnothing] at h
    exact absurd h.symm (by simp)
  · rw [h] at hcrosses
    exact hcrosses.crossing_cases

/-! ## Following the stream -/

/-- A listener that knows what the pointer rests on knows it after one more call. -/
theorem foldl_follow_signs (p : Pointer) (call : Call) :
    (p.signs call).foldl Sign.follow p.hovered = (p.step call).hovered := by
  rcases perform_cases p call with ⟨region, rfl, -⟩ | ⟨hcrosses, hhovered, hsigns⟩
  · rfl
  · rw [hsigns, hhovered, hcrosses.foldl_follow]

/-- Every sign of a call fits what has been noted by then. -/
theorem along_fits_signs (p : Pointer) (call : Call) :
    Along Sign.follow Sign.Fits p.hovered (p.signs call) := by
  rcases perform_cases p call with ⟨region, rfl, -⟩ | ⟨hcrosses, -, hsigns⟩
  · exact ⟨trivial, trivial⟩
  · rw [hsigns]
    exact hcrosses.along_fits

/-- Following the stream of a run leads from what the pointer rests on before the run to
what it rests on afterwards. -/
theorem foldl_follow_stream (p : Pointer) (calls : List Call) :
    (p.stream calls).foldl Sign.follow p.hovered = (p.run calls).hovered := by
  induction calls generalizing p with
  | nil => rfl
  | cons call rest ih =>
      have hstream : p.stream (call :: rest) = p.signs call ++ (p.step call).stream rest := rfl
      rw [hstream, List.foldl_append, foldl_follow_signs, ih]
      rfl

/-- Every sign of the stream of a run fits what has been noted by then. -/
theorem along_fits_stream (p : Pointer) (calls : List Call) :
    Along Sign.follow Sign.Fits p.hovered (p.stream calls) := by
  induction calls generalizing p with
  | nil => trivial
  | cons call rest ih =>
      refine along_append.mpr ⟨along_fits_signs p call, ?_⟩
      rw [foldl_follow_signs]
      exact ih (p.step call)

/-! ## Entries into one region -/

/-- While nothing is crossed at the region that the pointer is taken to rest on, and it is not
forgotten, the pointer is taken to rest on it: no other region fits a crossing. -/
theorem foldl_follow_of_untouched {signs : List Sign}
    (hfits : Along Sign.follow Sign.Fits (some region) signs)
    (huncrossed : ∀ crossing, .crossing crossing ∈ signs → crossing.target ≠ some region)
    (hkept : .forgotten region ∉ signs) :
    signs.foldl Sign.follow (some region) = some region := by
  induction signs with
  | nil => rfl
  | cons sign rest ih =>
      have hsame : sign.follow (some region) = some region := by
        cases sign with
        | forgotten other =>
            have hne : region ≠ other := by
              rintro rfl
              exact hkept List.mem_cons_self
            simp [Sign.follow, hne]
        | crossing crossing =>
            have htarget := huncrossed crossing List.mem_cons_self
            rcases crossing with ⟨_ | _, target, related⟩
            -- an entry fits only outside all regions, a departure only from this one
            · exact absurd hfits.1.1 nofun
            · exact absurd hfits.1.1.symm htarget
      rw [List.foldl_cons, hsame]
      have hrest := hfits.2
      rw [hsame] at hrest
      exact ih hrest
        (fun crossing hlater => huncrossed crossing (List.mem_cons_of_mem _ hlater))
        (fun hlater => hkept (List.mem_cons_of_mem _ hlater))

/-- Between two entries into a region with no crossing at it in between, it was forgotten. -/
theorem forgotten_between {told : Option RegionKey} {before between after : List Sign}
    {first second : Option RegionKey}
    (hfits : Along Sign.follow Sign.Fits told
      (before ++ .crossing (.enter region first) ::
        (between ++ .crossing (.enter region second) :: after)))
    (huncrossed : ∀ crossing, .crossing crossing ∈ between → crossing.target ≠ some region) :
    .forgotten region ∈ between := by
  obtain ⟨-, -, hlater⟩ := along_append.mp hfits
  obtain ⟨hbetween, ⟨hoff, -⟩, -⟩ := along_append.mp hlater
  by_cases hforgotten : Sign.forgotten region ∈ between
  · exact hforgotten
  · have htold := foldl_follow_of_untouched hbetween huncrossed hforgotten
    exact absurd (htold.symm.trans hoff) nofun

/-- After every run of a fresh pointer a listener that has followed the stream knows what the
pointer rests on.  Whatever the next call is, each crossing that it answers leaves what the
pointer is taken to rest on by then and names the region that the call moves to, or enters
that region while the pointer is taken to rest on none and names what the crossing just
before it in the same call has left.  In the whole stream no two entries into a region follow
one another, unless the region was forgotten in between. -/
theorem stream_balanced (calls : List Call) :
    let p := ({} : Pointer).run calls
    let stream := ({} : Pointer).stream calls
    p.hovered = stream.foldl Sign.follow none ∧
      (∀ call before crossing after, (p.perform call).1 = before ++ crossing :: after →
        let told := (stream ++ before.map Sign.crossing).foldl Sign.follow none
        (∃ old, told = some old ∧ crossing = .leave old call.hit?) ∨
          ∃ new, told = none ∧ call.hit? = some new ∧
            crossing = .enter new (before.getLast?.bind Crossing.left?)) ∧
      ∀ before between after region first second,
        stream = before ++ .crossing (.enter region first) ::
          (between ++ .crossing (.enter region second) :: after) →
        (∀ crossing, .crossing crossing ∈ between → crossing.target ≠ some region) →
        .forgotten region ∈ between := by
  intro p stream
  have hhovered : stream.foldl Sign.follow none = p.hovered := foldl_follow_stream {} calls
  refine ⟨hhovered.symm, ?_, ?_⟩
  · intro call before crossing after hperform
    rw [List.foldl_append, hhovered]
    exact crossing_of_perform hperform
  · intro before between after region first second hstream huncrossed
    have hfits : Along Sign.follow Sign.Fits none stream := along_fits_stream {} calls
    rw [hstream] at hfits
    exact forgotten_between hfits huncrossed

/-- The pointer switches to a region that is then forgotten, and comes to rest on it again: two
entries into it follow one another, with the forgetting in between.  Switching back leaves it
for the region that is entered next. -/
theorem stream_balanced_through_forgetting :
    let first : RegionKey := .fresh 1
    let second : RegionKey := .fresh 2
    let calls : List Call :=
      [.moveTo (some first), .moveTo (some second), .forget second, .moveTo (some second)]
    let p := ({} : Pointer).run calls
    let stream := ({} : Pointer).stream calls
    let told := (stream ++ [Sign.crossing (.leave second (some first))]).foldl Sign.follow none
    stream = [.crossing (.enter first none), .crossing (.leave first (some second)),
        .crossing (.enter second (some first)), .forgotten second,
        .crossing (.enter second none)] ∧
      (p.perform (.moveTo (some first))).1 =
        [.leave second (some first), .enter first (some second)] ∧
      p.hovered = stream.foldl Sign.follow none ∧ told = none ∧
      .forgotten second ∈ [Sign.forgotten second] := by
  intro first second calls p stream told
  have hstream : stream = [.crossing (.enter first none),
      .crossing (.leave first (some second))] ++ .crossing (.enter second (some first)) ::
        ([.forgotten second] ++ .crossing (.enter second none) :: []) := by decide
  have hperform : (p.perform (.moveTo (some first))).1 =
      [.leave second (some first)] ++ .enter first (some second) :: [] := by decide
  obtain ⟨hhovered, hcrossings, hentries⟩ := stream_balanced calls
  have hforgotten := hentries _ _ _ _ _ _ hstream (by simp)
  refine ⟨hstream, hperform, hhovered, ?_, hforgotten⟩
  rcases hcrossings _ _ _ _ hperform with ⟨old, -, hleave⟩ | ⟨new, htold, -⟩
  · exact absurd (congrArg Crossing.kind hleave) nofun
  · exact htold

end Pointer

end NestedHover
