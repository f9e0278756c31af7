import NestedHover.Pointer.Crossing
import NestedHover.Region.Diagram
import NestedHover.Spotlight.Basic

/-!
# From crossings to the spotlight

A crossing is handled by the owner of its target, the nearest focusable region at
or above it, and by nobody else.  An owner leaves alone what happens inside a
focusable region nested in it.  When the pointer comes back from such a region the
owner asks for the highlight with a delay, so that it does not flash up while the
nested region is being left; when the pointer leaves the owner altogether it asks
to lose the highlight.

Main results:

- Theorem {lit}`dispatch_of_owner?_eq_none`: a crossing whose target has no owner
  changes nothing.
-/

namespace NestedHover

/-- What the owner of a crossing makes of it. -/
inductive Decision where
  | ignored
  | activate (region : RegionKey)
  | activateLater (region : RegionKey)
  | deactivateLater (region : RegionKey)
deriving DecidableEq, Repr

/-- The decision of an owner about a crossing. -/
def Decision.of (d : Diagram) (owner : RegionKey) (c : Crossing) : Decision :=
  match c.kind with
  | .enter =>
      if c.target.any fun target => d.isNested target owner then .ignored
      else if c.related.any fun related => d.isNested related owner then
        .activateLater owner
      else .activate owner
  | .leave =>
      if c.related.any fun related => d.isWithin related owner then .ignored
      else .deactivateLater owner

namespace Spotlight

/-- Makes the request that a decision calls for, and answers the decision. -/
def follow (s : Spotlight) (decision : Decision) (now : Instant) :
    Except ClockError Decision × Spotlight :=
  match decision with
  | .ignored => (.ok decision, s)
  | .activate region => (.ok decision, (s.activate region).2)
  | .activateLater region =>
      let outcome := s.activateLater region now
      (outcome.1.map fun _ => decision, outcome.2)
  | .deactivateLater region =>
      let outcome := s.deactivateLater region now
      (outcome.1.map fun _ => decision, outcome.2)

/-- Has an owner decide about a crossing and follows the decision. -/
def handle (s : Spotlight) (d : Diagram) (owner : RegionKey) (c : Crossing)
    (now : Instant) : Except ClockError Decision × Spotlight :=
  s.follow (.of d owner c) now

/-- Has the owner of a crossing's target handle it, if there is one. -/
def dispatch (s : Spotlight) (d : Diagram) (c : Crossing) (now : Instant) :
    Except ClockError Decision × Spotlight :=
  match c.target.bind d.owner? with
  | some owner => s.handle d owner c now
  | none => (.ok .ignored, s)

/-- Dispatches crossings in order, up to the first one that fails. -/
def dispatchAll (s : Spotlight) (d : Diagram) (now : Instant) :
    List Crossing → Except ClockError (List Decision) × Spotlight
  | [] => (.ok [], s)
  | c :: rest =>
      match s.dispatch d c now with
      | (.ok decision, next) =>
          let outcome := next.dispatchAll d now rest
          (outcome.1.map (decision :: ·), outcome.2)
      | (.error e, next) => (.error e, next)

theorem dispatch_of_owner?_eq_none {s : Spotlight} {d : Diagram} {c : Crossing}
    (h : c.target.bind d.owner? = none) (now : Instant) :
    s.dispatch d c now = (.ok .ignored, s) := by
  simp [dispatch, h]

end Spotlight

end NestedHover
