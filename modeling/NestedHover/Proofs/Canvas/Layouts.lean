import NestedHover.Proofs.Canvas.Unmounting
import NestedHover.Proofs.Region.Bounds

/-!
# A decorator in step with its regions

Where a decorator is drawn is written down twice, in its layout and in the bounds of its two
regions, and so is the halt mark, in the decorator and in its layout.  Laying the decorator out
writes the first two and reads the mark; setting the mark writes both places where it is.  A
decorator is in step if its layout shows the mark that was set last and if its regions, as far
as they are live, have the bounds that the layout calls for in the box of the last call.

Main results:

- Theorem {lit}`sameBut_arrange`: laying out a decorator changes the bounds of its two regions
  at most, and nothing else.
- Theorem {lit}`InStep.run`: changes that give the regions of a decorator no new bounds leave it
  in step.
- Theorem {lit}`InStep.serve`: every call on a decorator keeps it in step.
-/

namespace NestedHover

namespace Decorator

variable {decorator : Decorator} {d : Diagram} {c : Canvas} {out removed : List RegionKey}

/-! ## Calls on a decorator -/

/-- The keys of the two regions of a decorator. -/
def keys (decorator : Decorator) : List RegionKey :=
  [decorator.region, decorator.headingRegion]

theorem region_mem_keys (decorator : Decorator) : decorator.region ∈ decorator.keys :=
  List.mem_pair.mpr (.inl rfl)

theorem headingRegion_mem_keys (decorator : Decorator) :
    decorator.headingRegion ∈ decorator.keys :=
  List.mem_pair.mpr (.inr rfl)

/-- The changes to the regions that laying a decorator out makes. -/
def placements (decorator : Decorator) (box statement : Rectangle) (hasBreakpoint : Bool) :
    List Diagram.Operation :=
  let layout := Layout.compute decorator.dimensions box statement hasBreakpoint
  [.setBounds decorator.region (layout.hoverBounds box),
    .setBounds decorator.headingRegion layout.heading]

/-- A call on a mounted decorator. -/
inductive Call where
  | arrange (box statement : Rectangle) (hasBreakpoint : Bool)
  | setDebugHit (debugHit : Bool)
  | unmount
deriving DecidableEq

/-- The decorator and the canvas after a call. -/
def serve (decorator : Decorator) (c : Canvas) : Call → Decorator × Canvas
  | .arrange box statement hasBreakpoint => decorator.arrange c box statement hasBreakpoint
  | .setDebugHit debugHit => (decorator.setDebugHit debugHit, c)
  | .unmount => (decorator, (decorator.unmount c).2)

/-- The changes to the regions that a call makes. -/
def changes (decorator : Decorator) : Call → List Diagram.Operation
  | .arrange box statement hasBreakpoint => decorator.placements box statement hasBreakpoint
  | .setDebugHit _ => []
  | .unmount => [.remove decorator.region]

@[simp] theorem keys_serve (decorator : Decorator) (c : Canvas) (call : Call) :
    (decorator.serve c call).1.keys = decorator.keys := by
  cases call <;> rfl

theorem diagram_serve (decorator : Decorator) (c : Canvas) (call : Call) :
    (decorator.serve c call).2.diagram = c.diagram.run (decorator.changes call) := by
  cases call <;> rfl

/-- A call on a decorator gives new bounds to its own regions only. -/
theorem mem_keys_of_mem_changes {call : Call} {change : Diagram.Operation} {key : RegionKey}
    (hchange : change ∈ decorator.changes call) (hkey : key ∈ change.placed?) :
    key ∈ decorator.keys := by
  cases call with
  | arrange box statement hasBreakpoint =>
      rcases List.mem_pair.mp hchange with rfl | rfl <;> cases hkey
      · exact decorator.region_mem_keys
      · exact decorator.headingRegion_mem_keys
  | setDebugHit debugHit => cases hchange
  | unmount =>
      rw [List.mem_singleton.mp hchange] at hkey
      cases hkey

/-- Laying out a decorator changes the bounds of its two regions at most, and nothing else. -/
theorem sameBut_arrange (hsound : c.diagram.Sound) (decorator : Decorator)
    (box statement : Rectangle) (hasBreakpoint : Bool) :
    Diagram.SameBut decorator.keys c.diagram
      (decorator.arrange c box statement hasBreakpoint).2.diagram :=
  (Diagram.sameBut_setBounds hsound _ _).trans
    (Diagram.sameBut_setBounds (hsound.setBounds _ _) _ _)

/-- The keys of a decorator that is being mounted are those that are handed out for it. -/
theorem handouts_additions {next : Canvas} {parent : Option RegionKey} {dimensions : Dimensions}
    (h : mount? c parent dimensions = some (decorator, next)) :
    c.diagram.handouts (decorator.additions parent) = decorator.keys := by
  rcases Canvas.mount?_cases h with ⟨middle, hfirst, hsecond⟩
  have hmiddle : c.diagram.perform (.insert parent .focusable .unplaced) = middle := by
    simp [Diagram.perform, hfirst]
  rw [additions, Diagram.handouts_cons, Diagram.handouts_cons, hmiddle,
    Diagram.handsOut_insert hfirst, Diagram.handsOut_insert hsecond]
  rfl

/-! ## What was last asked of a decorator -/

/-- The box that a call lays the decorator out in. -/
def Call.box? : Call → Option Rectangle
  | .arrange box _ _ => some box
  | _ => none

/-- The halt mark that a call sets. -/
def Call.debugHit? : Call → Option Bool
  | .setDebugHit debugHit => some debugHit
  | _ => none

/-- The box that a decorator was last laid out in. -/
def lastBox? (history : List Call) : Option Rectangle :=
  (history.filterMap Call.box?).getLast?

/-- The halt mark that was last set; none is set at first. -/
def lastDebugHit (history : List Call) : Bool :=
  (history.filterMap Call.debugHit?).getLast?.getD false

private theorem getLast?_filterMap_concat {α β : Type} (f : α → Option β) (l : List α) (a : α) :
    ((l ++ [a]).filterMap f).getLast? = (f a).or (l.filterMap f).getLast? := by
  rw [List.filterMap_append, List.getLast?_append]
  cases h : f a <;> simp [h]

theorem lastBox?_concat (history : List Call) (call : Call) :
    lastBox? (history ++ [call]) = call.box?.or (lastBox? history) :=
  getLast?_filterMap_concat _ history call

theorem lastDebugHit_concat (history : List Call) (call : Call) :
    lastDebugHit (history ++ [call]) = call.debugHit?.getD (lastDebugHit history) := by
  rw [lastDebugHit, getLast?_filterMap_concat]
  cases call.debugHit? <;> rfl

/-! ## A decorator in step with its regions -/

/-- A layout has the given halt mark, and both regions show the bounds that it gives them in
the given box. -/
structure Drawn (d : Diagram) (decorator : Decorator) (debugHit : Bool) (layout : Layout)
    (box : Rectangle) : Prop where
  debugHit_eq : layout.debugHit = debugHit
  region : d.Shows decorator.region (layout.hoverBounds box)
  heading : d.Shows decorator.headingRegion layout.heading

/-- What the decorator holds and what its regions show is what was last asked of it. -/
structure InStep (d : Diagram) (decorator : Decorator) (history : List Call) : Prop where
  debugHit_eq : decorator.debugHit = lastDebugHit history
  isSome_eq : decorator.layout?.isSome = (lastBox? history).isSome
  drawn : ∀ layout ∈ decorator.layout?, ∀ box ∈ lastBox? history,
    Drawn d decorator (lastDebugHit history) layout box

variable {history : List Call}

/-- Changes that give the regions of a decorator no new bounds leave it in step. -/
theorem InStep.run (hrecorded : d.Recorded out removed) (h : InStep d decorator history)
    {changes : List Diagram.Operation}
    (hspared : ∀ change ∈ changes, ∀ key ∈ change.placed?, key ∉ decorator.keys)
    (hroom : out.length + (d.handouts changes).length ≤ 0x80000000) :
    InStep (d.run changes) decorator history where
  debugHit_eq := h.debugHit_eq
  isSome_eq := h.isSome_eq
  drawn layout hlayout box hbox := by
    have hdrawn := h.drawn layout hlayout box hbox
    have hspares : ∀ key ∈ decorator.keys, ∀ change ∈ changes, change.placed? ≠ some key :=
      fun key hkey change hchange hplaced => hspared change hchange key hplaced hkey
    exact {
      debugHit_eq := hdrawn.debugHit_eq
      region := hdrawn.region.run hrecorded (hspares _ decorator.region_mem_keys) hroom
      heading := hdrawn.heading.run hrecorded (hspares _ decorator.headingRegion_mem_keys) hroom }

/-- Every call on a decorator keeps it in step. -/
theorem InStep.serve (hrecorded : c.diagram.Recorded out removed)
    (hroom : out.length ≤ 0x80000000) (hissued : ∀ key ∈ decorator.keys, c.diagram.Issued key)
    (hnodup : decorator.keys.Nodup) (h : InStep c.diagram decorator history) (call : Call) :
    InStep (decorator.serve c call).2.diagram (decorator.serve c call).1 (history ++ [call]) := by
  have hsound := hrecorded.sound
  cases call with
  | arrange box statement hasBreakpoint =>
      have hne : decorator.region ≠ decorator.headingRegion := by simpa [keys] using hnodup
      have hregion := hissued _ decorator.region_mem_keys
      have hheading := hissued _ decorator.headingRegion_mem_keys
      constructor
      · rw [lastDebugHit_concat]
        exact h.debugHit_eq
      · rw [lastBox?_concat]
        rfl
      · rw [lastBox?_concat, lastDebugHit_concat]
        rintro layout ⟨⟩ placed ⟨⟩
        exact {
          debugHit_eq := h.debugHit_eq
          region := (Diagram.shows_setBounds hsound hregion _).setBounds
            (hsound.setBounds _ _) hne _
          heading := Diagram.shows_setBounds (hsound.setBounds _ _)
            (hheading.setBounds _ _) _ }
  | setDebugHit debugHit =>
      constructor
      · rw [lastDebugHit_concat]
        rfl
      · rw [lastBox?_concat]
        exact (Option.isSome_map ..).trans h.isSome_eq
      · rw [lastBox?_concat, lastDebugHit_concat]
        intro layout hlayout box hbox
        rcases Option.map_eq_some_iff.mp hlayout with ⟨before, hbefore, rfl⟩
        -- the mark is no part of what the bounds depend on
        have hdrawn := h.drawn before hbefore box hbox
        exact ⟨rfl, hdrawn.region, hdrawn.heading⟩
  | unmount =>
      have hbox : lastBox? (history ++ [.unmount]) = lastBox? history := lastBox?_concat _ _
      have hmark : lastDebugHit (history ++ [.unmount]) = lastDebugHit history :=
        lastDebugHit_concat _ _
      have hspared : ∀ change ∈ decorator.changes .unmount, ∀ key ∈ change.placed?,
          key ∉ decorator.keys := by
        simp [changes, Diagram.Operation.placed?]
      -- unmounting asks nothing of the layout; the regions go, and so do the claims on them
      have hkept := h.run hrecorded hspared hroom
      exact ⟨hmark ▸ hkept.debugHit_eq, hbox ▸ hkept.isSome_eq,
        hmark ▸ hbox ▸ hkept.drawn⟩

/-- A decorator that has just been mounted has not been asked anything. -/
theorem inStep_of_mount? {next : Canvas} {parent : Option RegionKey} {dimensions : Dimensions}
    (h : mount? c parent dimensions = some (decorator, next)) : InStep d decorator [] := by
  have hblank : decorator.debugHit = false ∧ decorator.layout? = none := by
    unfold mount? at h
    split at h
    · cases h
    · split at h <;> cases h
      exact ⟨rfl, rfl⟩
  constructor
  · exact hblank.1
  · rw [hblank.2]
    rfl
  · rw [hblank.2]
    nofun

end Decorator

end NestedHover
