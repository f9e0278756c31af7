import NestedHover.Spotlight.Basic

/-!
# Runs of the spotlight

Every call that changes a spotlight, as a value, so that whole histories can be
spoken of.  A call that fails keeps what it had changed by then, and the run goes
on from there.

Main results:

- Theorem {lit}`run_append`: a run in two parts is the second part from where the
  first one ends.
-/

namespace NestedHover

namespace Spotlight

/-- A call that changes a spotlight. -/
inductive Operation where
  | configure (settings : Settings)
  | register (region : RegionKey)
  | deregister (region : RegionKey)
  | activate (region : RegionKey)
  | activateLater (region : RegionKey) (now : Instant)
  | deactivateLater (region : RegionKey) (now : Instant)
  | tick (now : Instant)
  | reset
deriving DecidableEq, Repr

/-- Carries out one call; calls that answer nothing answer that nothing
happened. -/
def perform (s : Spotlight) : Operation → Except ClockError Transition × Spotlight
  | .configure settings => (.ok .none, s.configure settings)
  | .register region => (.ok .none, s.register region)
  | .deregister region => (.ok .none, s.deregister region)
  | .activate region => ((.ok (s.activate region).1), (s.activate region).2)
  | .activateLater region now => s.activateLater region now
  | .deactivateLater region now => s.deactivateLater region now
  | .tick now => ((.ok (s.tick now).1), (s.tick now).2)
  | .reset => (.ok .none, s.reset)

/-- The spotlight after a sequence of calls. -/
def run (s : Spotlight) (operations : List Operation) : Spotlight :=
  operations.foldl (fun state operation => (state.perform operation).2) s

@[simp] theorem run_nil (s : Spotlight) : s.run [] = s := rfl

@[simp] theorem run_cons (s : Spotlight) (operation : Operation)
    (operations : List Operation) :
    s.run (operation :: operations) = (s.perform operation).2.run operations := rfl

theorem run_append (s : Spotlight) (first second : List Operation) :
    s.run (first ++ second) = (s.run first).run second := by
  simp [run, List.foldl_append]

end Spotlight

end NestedHover
