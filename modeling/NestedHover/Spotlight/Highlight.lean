import NestedHover.Region.Key

/-!
# Highlights, pending changes and transitions

The words in which the spotlight speaks: how a region stands with respect to the
highlight, the one change that may be waiting for its deadline, and what a call
brought about.

Main results:

- Theorem {lit}`Highlight.isShown_iff`: a region is shown while it is active or
  about to be hidden.
-/

namespace NestedHover

/-- How a region stands with respect to the highlight. -/
inductive Highlight where
  | hidden
  | pendingActive
  | active
  | pendingHidden
deriving DecidableEq, Repr

namespace Highlight

/-- Whether the highlight is drawn. -/
def isShown : Highlight → Bool
  | active | pendingHidden => true
  | hidden | pendingActive => false

/-- Whether a change is waiting for its deadline. -/
def isPending : Highlight → Bool
  | pendingActive | pendingHidden => true
  | hidden | active => false

/-- The name of the highlight in records and messages. -/
def name : Highlight → String
  | hidden => "hidden"
  | pendingActive => "pending-active"
  | active => "active"
  | pendingHidden => "pending-hidden"

theorem isShown_iff {h : Highlight} :
    h.isShown = true ↔ h = active ∨ h = pendingHidden := by
  cases h <;> simp [isShown]

end Highlight

/-- A change that takes effect once its deadline is reached. -/
inductive Pending where
  | activate (region : RegionKey)
  | deactivate (region : RegionKey)
deriving DecidableEq, Repr

/-- The region that a pending change is about. -/
def Pending.region : Pending → RegionKey
  | activate region => region
  | deactivate region => region

/-- What a call to the spotlight brought about. -/
inductive Transition where
  /-- Nothing that anybody has to draw. -/
  | none
  /-- The highlight went to a region from the one that held it. -/
  | activated (region : RegionKey) (previous : Option RegionKey)
  /-- The highlight left a region and went nowhere. -/
  | deactivated (region : RegionKey)
  /-- A change is pending under the given serial number. -/
  | scheduled (pending : Pending) (serial : Nat)
deriving DecidableEq, Repr

end NestedHover
