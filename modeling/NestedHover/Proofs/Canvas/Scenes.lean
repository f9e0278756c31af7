import NestedHover.Proofs.Canvas.Layouts
import NestedHover.Proofs.Canvas.References

/-!
# Scenes

A scene is a canvas with the decorators that were mounted on it.  Its driver lays them out and
sets their halt marks in any order, mounts and unmounts others, and does with the canvas what
it likes, except that it gives no bounds to the regions of a decorator by itself.  A decorator
that has been unmounted stays in the scene: its owner may go on using it.

The regions of two decorators have different keys, also when slots are used again.  So a call
on one decorator leaves what the others show, and every decorator stays in step with its
regions.

Main results:

- Theorem {lit}`decorators_perform`: where the decorators come from that a call leaves.
- Theorem {lit}`Tidy.perform`: every call on a scene keeps all its decorators in step.
- Theorem {lit}`layouts_in_step`: in every state that a run of at most 2^31 additions reaches,
  the regions that are still live have the bounds of the last layout, and the layout shows the
  halt mark that was set last.
-/

namespace NestedHover

namespace Canvas

/-- The changes to the regions that a call makes. -/
def changes (c : Canvas) : Call → List Diagram.Operation
  | .operate (.insert parent kind bounds) => [.insert parent kind bounds]
  | .operate (.mount parent dimensions) =>
      ((Decorator.mount? c parent dimensions).map fun mounted =>
        mounted.1.additions parent).getD []
  | .operate (.place key bounds) => [.setBounds key bounds]
  | .operate (.arrange decorator box statement hasBreakpoint) =>
      decorator.placements box statement hasBreakpoint
  | .operate (.discard key) => [.remove key]
  | .operate (.unmount decorator) => [.remove decorator.region]
  | .add parent kind bounds => [.insert parent kind bounds]
  | _ => []

theorem changes_mount {c next : Canvas} {parent : Option RegionKey} {dimensions : Dimensions}
    {decorator : Decorator} (h : Decorator.mount? c parent dimensions = some (decorator, next)) :
    c.changes (.operate (.mount parent dimensions)) = decorator.additions parent := by
  simp [changes, h]

theorem diagram_serve (c : Canvas) (call : Call) :
    (c.serve call).diagram = c.diagram.run (c.changes call) := by
  cases call with
  | operate operation =>
      cases operation with
      | insert parent kind bounds =>
          cases hinsert : c.diagram.insert? parent kind bounds <;>
            simp [serve, step, perform, changes, Canvas.insert, Diagram.run, Diagram.perform,
              hinsert]
      | mount parent dimensions =>
          cases hmount : Decorator.mount? c parent dimensions with
          | none => simp [serve, step, perform, changes, hmount, Diagram.run]
          | some mounted =>
              rw [changes_mount hmount, run_additions hmount]
              simp [serve, step, perform, hmount]
      | event event => exact diagram_after c event
      | _ => rfl
  | _ => rfl

end Canvas

/-- A canvas and the decorators that were mounted on it, in that order. -/
structure Scene where
  canvas : Canvas := {}
  decorators : List Decorator := []
deriving DecidableEq

namespace Scene

variable {s : Scene} {out removed : List RegionKey} {calls : List Call}

/-! ## Calls on a scene -/

/-- A call of the driver of a scene. -/
inductive Call where
  /-- Mounts a decorator that the scene keeps. -/
  | mount (parent : Option RegionKey) (dimensions : Dimensions)
  /-- A call on the decorator with the given number. -/
  | decorator (handle : Nat) (call : Decorator.Call)
  /-- Any other call on the canvas. -/
  | canvas (call : Canvas.Call)
deriving DecidableEq

/-- The scene after one call. -/
def perform (s : Scene) : Call → Scene
  | .mount parent dimensions =>
      match Decorator.mount? s.canvas parent dimensions with
      | some (decorator, canvas) => ⟨canvas, s.decorators ++ [decorator]⟩
      | none => s
  | .decorator handle call =>
      match s.decorators[handle]? with
      | some decorator =>
          ⟨(decorator.serve s.canvas call).2,
            s.decorators.set handle (decorator.serve s.canvas call).1⟩
      | none => s
  | .canvas call => { s with canvas := s.canvas.serve call }

/-- The scene after a sequence of calls. -/
def run (s : Scene) (calls : List Call) : Scene := calls.foldl perform s

/-- The keys of all regions of decorators. -/
def keys (s : Scene) : List RegionKey := s.decorators.flatMap Decorator.keys

/-- A call on a decorator names one of the scene, and no other call gives new bounds to a
region of one. -/
def Careful (s : Scene) : Call → Prop
  | .mount _ _ => True
  | .decorator handle _ => handle < s.decorators.length
  | .canvas call =>
      ∀ change ∈ s.canvas.changes call, ∀ key ∈ change.placed?, key ∉ s.keys

instance (s : Scene) : ∀ call, Decidable (s.Careful call)
  | .mount _ _ => inferInstanceAs (Decidable True)
  | .decorator _ _ => inferInstanceAs (Decidable (_ < _))
  | .canvas call =>
      inferInstanceAs (Decidable (∀ change ∈ s.canvas.changes call, ∀ key ∈ change.placed?,
        key ∉ s.keys))

/-- The changes to the regions that a call makes. -/
def changes (s : Scene) : Call → List Diagram.Operation
  | .mount parent dimensions => s.canvas.changes (.operate (.mount parent dimensions))
  | .decorator handle call =>
      (s.decorators[handle]?.map fun decorator => decorator.changes call).getD []
  | .canvas call => s.canvas.changes call

/-- The keys that a call hands out, one for each region that it adds. -/
def handsOut (s : Scene) (call : Call) : List RegionKey :=
  s.canvas.diagram.handouts (s.changes call)

/-- The keys that a run hands out, one for each region that it adds. -/
def handouts (s : Scene) (calls : List Call) : List RegionKey := gathered perform handsOut s calls

theorem diagram_perform (s : Scene) (call : Call) :
    (s.perform call).canvas.diagram = s.canvas.diagram.run (s.changes call) := by
  cases call with
  | mount parent dimensions =>
      cases hmount : Decorator.mount? s.canvas parent dimensions with
      | none => simp [perform, changes, Canvas.changes, hmount, Diagram.run]
      | some mounted =>
          rw [changes, Canvas.changes_mount hmount, Canvas.run_additions hmount]
          simp [perform, hmount]
  | decorator handle call =>
      cases hdecorator : s.decorators[handle]? with
      | none => simp [perform, changes, hdecorator, Diagram.run]
      | some decorator =>
          simp [perform, changes, hdecorator, Decorator.diagram_serve]
  | canvas call => exact s.canvas.diagram_serve call

/-- The calls on the decorator with the given number. -/
def history (handle : Nat) (calls : List Call) : List Decorator.Call :=
  calls.filterMap fun
    | .decorator named call => if named = handle then some call else none
    | _ => none

theorem history_concat_self (handle : Nat) (calls : List Call) (own : Decorator.Call) :
    history handle (calls ++ [.decorator handle own]) = history handle calls ++ [own] := by
  simp [history]

/-- A call that is not on a decorator leaves the calls on it. -/
theorem history_concat_of_ne {handle : Nat} {call : Call}
    (hother : ∀ own, call ≠ .decorator handle own) (calls : List Call) :
    history handle (calls ++ [call]) = history handle calls := by
  rw [history, List.filterMap_append, ← history]
  cases call with
  | decorator named own =>
      have hne : named ≠ handle := by
        rintro rfl
        exact hother own rfl
      simp [hne]
  | _ => simp

/-! ## Scenes in which all decorators are in step -/

/-- The keys of the decorators are among those that were handed out, in the same order, and
every decorator is in step with what was asked of it. -/
structure Tidy (s : Scene) (out removed : List RegionKey) (calls : List Call) : Prop where
  recorded : s.canvas.diagram.Recorded out removed
  sublist : s.keys.Sublist out
  inStep : ∀ {handle : Nat} {decorator : Decorator}, s.decorators[handle]? = some decorator →
    Decorator.InStep s.canvas.diagram decorator (history handle calls)
  unused : ∀ handle, s.decorators.length ≤ handle → history handle calls = []

theorem tidy_empty (canvas : Canvas) (hempty : canvas.diagram = {}) :
    Tidy { canvas } [] [] [] where
  recorded := hempty ▸ Diagram.recorded_empty
  sublist := List.Sublist.refl []
  inStep hdecorator := nomatch hdecorator
  unused _ _ := rfl

theorem mem_keys {handle : Nat} {decorator : Decorator} {key : RegionKey}
    (hdecorator : s.decorators[handle]? = some decorator) (hkey : key ∈ decorator.keys) :
    key ∈ s.keys :=
  List.mem_flatMap.mpr ⟨decorator, List.mem_of_getElem? hdecorator, hkey⟩

theorem Tidy.nodup (h : s.Tidy out removed calls) : s.keys.Nodup :=
  h.recorded.nodup.sublist h.sublist

/-- No region belongs to two decorators. -/
theorem Tidy.disjoint (h : s.Tidy out removed calls) {handle other : Nat}
    {decorator neighbour : Decorator} (hdecorator : s.decorators[handle]? = some decorator)
    (hneighbour : s.decorators[other]? = some neighbour) (hne : handle ≠ other) :
    decorator.keys.Disjoint neighbour.keys := by
  have hpairwise := (List.nodup_flatMap.mp h.nodup).2
  rw [List.pairwise_iff_getElem] at hpairwise
  rcases List.getElem?_eq_some_iff.mp hdecorator with ⟨hhandle, rfl⟩
  rcases List.getElem?_eq_some_iff.mp hneighbour with ⟨hother, rfl⟩
  rcases Nat.lt_or_gt_of_ne hne with hbefore | hafter
  · exact hpairwise _ _ hhandle hother hbefore
  · exact fun key hkey hneighbour => hpairwise _ _ hother hhandle hafter hneighbour hkey

/-- The keys of the decorators stay as they are, or those of the new one are handed out. -/
theorem keys_perform (s : Scene) (call : Call) :
    (s.perform call).keys = s.keys ∨ (s.perform call).keys = s.keys ++ s.handsOut call := by
  cases call with
  | mount parent dimensions =>
      cases hmount : Decorator.mount? s.canvas parent dimensions with
      | none => exact .inl (by simp [perform, hmount])
      | some mounted =>
          rw [handsOut, changes, Canvas.changes_mount hmount,
            Decorator.handouts_additions hmount]
          exact .inr (by simp [perform, keys, hmount])
  | decorator handle call =>
      cases hdecorator : s.decorators[handle]? with
      | none => exact .inl (by simp [perform, hdecorator])
      | some decorator =>
          rcases List.getElem?_eq_some_iff.mp hdecorator with ⟨hhandle, rfl⟩
          left
          simp only [perform, hdecorator, keys, List.flatMap_def, List.map_set,
            Decorator.keys_serve]
          rw [← List.map_set, List.set_getElem_self]
  | canvas call => exact .inl rfl

/-- No decorator leaves the scene. -/
theorem length_le_perform (s : Scene) (call : Call) :
    s.decorators.length ≤ (s.perform call).decorators.length := by
  cases call with
  | mount parent dimensions =>
      cases hmount : Decorator.mount? s.canvas parent dimensions <;> simp [perform, hmount]
  | decorator handle call =>
      cases hdecorator : s.decorators[handle]? <;> simp [perform, hdecorator]
  | canvas call => exact Nat.le_refl _

/-- Where a decorator comes from: it was there and the call was not on it, it is what a call on
it has left, or it has just been mounted. -/
theorem decorators_perform {call : Call} {handle : Nat} {decorator : Decorator}
    (h : (s.perform call).decorators[handle]? = some decorator) :
    (s.decorators[handle]? = some decorator ∧ ∀ own, call ≠ .decorator handle own) ∨
      (∃ own before, call = .decorator handle own ∧ s.decorators[handle]? = some before ∧
        decorator = (before.serve s.canvas own).1 ∧
        (s.perform call).canvas = (before.serve s.canvas own).2) ∨
      (handle = s.decorators.length ∧ (∀ own, call ≠ .decorator handle own) ∧
        ∃ parent dimensions next,
          Decorator.mount? s.canvas parent dimensions = some (decorator, next)) := by
  cases call with
  | mount parent dimensions =>
      cases hmount : Decorator.mount? s.canvas parent dimensions with
      | none =>
          simp only [perform, hmount] at h
          exact .inl ⟨h, nofun⟩
      | some mounted =>
          rcases mounted with ⟨mounted, next⟩
          simp only [perform, hmount, List.getElem?_append, List.getElem?_singleton] at h
          split at h
          · exact .inl ⟨h, nofun⟩
          · split at h <;> cases h
            have hhandle : handle = s.decorators.length := by omega
            exact .inr (.inr ⟨hhandle, nofun, parent, dimensions, next, hmount⟩)
  | decorator named own =>
      cases hnamed : s.decorators[named]? with
      | none =>
          simp only [perform, hnamed] at h
          refine .inl ⟨h, ?_⟩
          rintro own ⟨⟩
          cases hnamed.symm.trans h
      | some before =>
          simp only [perform, hnamed, List.getElem?_set] at h
          split at h
          · rename_i hsame
            subst hsame
            split at h <;> cases h
            exact .inr (.inl ⟨own, before, rfl, hnamed, rfl, by simp [perform, hnamed]⟩)
          · rename_i hne
            refine .inl ⟨h, ?_⟩
            rintro own ⟨⟩
            exact hne rfl
  | canvas call => exact .inl ⟨h, nofun⟩

/-- A call spares the regions of the decorators that it is not on. -/
theorem Tidy.spared (h : s.Tidy out removed calls) {call : Call} (hcareful : s.Careful call)
    {handle : Nat} {decorator : Decorator} (hdecorator : s.decorators[handle]? = some decorator)
    (hother : ∀ own, call ≠ .decorator handle own) :
    ∀ change ∈ s.changes call, ∀ key ∈ change.placed?, key ∉ decorator.keys := by
  intro change hchange key hkey hown
  cases call with
  | mount parent dimensions =>
      cases hmount : Decorator.mount? s.canvas parent dimensions with
      | none => simp [changes, Canvas.changes, hmount] at hchange
      | some mounted =>
          rw [changes, Canvas.changes_mount hmount] at hchange
          rcases List.mem_pair.mp hchange with rfl | rfl <;> cases hkey
  | decorator named call =>
      have hne : handle ≠ named := by
        rintro rfl
        exact hother call rfl
      cases hnamed : s.decorators[named]? with
      | none => simp [changes, hnamed] at hchange
      | some neighbour =>
          have hmem : change ∈ neighbour.changes call := by
            simpa [changes, hnamed] using hchange
          exact h.disjoint hdecorator hnamed hne hown
            (Decorator.mem_keys_of_mem_changes hmem hkey)
  | canvas call => exact hcareful change hchange key hkey (mem_keys hdecorator hown)

/-- Every decorator that a call leaves is in step. -/
theorem Tidy.inStep_perform (h : s.Tidy out removed calls) {call : Call}
    (hcareful : s.Careful call)
    (hroom : out.length + (s.handsOut call).length ≤ 0x80000000) {handle : Nat}
    {decorator : Decorator} (hdecorator : (s.perform call).decorators[handle]? = some decorator) :
    Decorator.InStep (s.perform call).canvas.diagram decorator
      (history handle (calls ++ [call])) := by
  rcases decorators_perform hdecorator with ⟨hold, hother⟩ |
    ⟨own, before, rfl, hbefore, rfl, hcanvas⟩ |
    ⟨rfl, hother, parent, dimensions, next, hmount⟩
  · rw [history_concat_of_ne hother, diagram_perform]
    exact (h.inStep hold).run h.recorded (h.spared hcareful hold hother) hroom
  · -- the keys have been handed out and differ, so each write reaches its own region
    rw [history_concat_self, hcanvas]
    have hissued : ∀ key ∈ before.keys, s.canvas.diagram.Issued key := fun key hkey =>
      h.recorded.issued key (h.sublist.mem (mem_keys hbefore hkey))
    have hnodup : before.keys.Nodup :=
      (List.nodup_flatMap.mp h.nodup).1 before (List.mem_of_getElem? hbefore)
    exact (h.inStep hbefore).serve h.recorded (Nat.le_of_add_right_le hroom) hissued hnodup own
  · rw [history_concat_of_ne hother, h.unused _ (Nat.le_refl _)]
    exact Decorator.inStep_of_mount? hmount

/-- Every call keeps all decorators in step. -/
theorem Tidy.perform (h : s.Tidy out removed calls) {call : Call} (hcareful : s.Careful call)
    (hroom : out.length + (s.handsOut call).length ≤ 0x80000000) :
    Tidy (s.perform call) (out ++ s.handsOut call)
      (removed ++ s.canvas.diagram.removals (s.changes call)) (calls ++ [call]) where
  recorded := by
    rw [diagram_perform]
    exact h.recorded.run hroom
  sublist := by
    rcases keys_perform s call with hsame | hmore
    · rw [hsame]
      exact h.sublist.trans (List.sublist_append_left _ _)
    · rw [hmore]
      exact h.sublist.append_right _
  inStep := h.inStep_perform hcareful hroom
  unused handle hhandle := by
    have hlength := length_le_perform s call
    have hother : ∀ own, call ≠ .decorator handle own := by
      -- a careful call names no number before its decorator has been mounted
      rintro own rfl
      have hknown : handle < s.decorators.length := hcareful
      omega
    rw [history_concat_of_ne hother]
    exact h.unused handle (Nat.le_trans hlength hhandle)

/-- A run by the rules that adds at most 2^31 regions keeps all decorators in step. -/
theorem Tidy.run (h : s.Tidy out removed calls) {later : List Call}
    (hcareful : Along Scene.perform Careful s later)
    (hroom : out.length + (s.handouts later).length ≤ 0x80000000) :
    ∃ handedOut reported, Tidy (s.run later) handedOut reported (calls ++ later) := by
  induction later generalizing s out removed calls with
  | nil => exact ⟨out, removed, by simpa [Scene.run] using h⟩
  | cons call rest ih =>
      rw [handouts, gathered, ← handouts, List.length_append] at hroom
      have hnext := h.perform hcareful.1 (by omega)
      rw [List.append_cons]
      exact ih hnext hcareful.2 (by rw [List.length_append]; omega)

/-- In every state that a run reaches from an empty canvas, as long as at most 2^31 regions have
been added and no call but a layout gives bounds to a region of a decorator: a decorator has a
layout if it has been laid out, and the layout shows the halt mark that was set last, before or
after; its region, if it is still live, has the bounds that this layout calls for in the box
of the last call, and its heading has those of the heading of the layout.  No region belongs to
two decorators.  Laying out any decorator, with live regions or not, changes the bounds of its
own two regions at most, and nothing else of the canvas. -/
theorem layouts_in_step (settings : Settings) {calls : List Call}
    (hcareful : Along perform Careful { canvas := { spotlight := { settings } } } calls)
    (hroom : (handouts { canvas := { spotlight := { settings } } } calls).length ≤ 0x80000000) :
    let start : Scene := { canvas := { spotlight := { settings } } }
    let s := start.run calls
    let d := s.canvas.diagram
    (∀ (handle : Nat) (decorator : Decorator), s.decorators[handle]? = some decorator →
      decorator.layout?.isSome = (Decorator.lastBox? (history handle calls)).isSome ∧
        ∀ layout ∈ decorator.layout?, ∀ box ∈ Decorator.lastBox? (history handle calls),
          layout.debugHit = Decorator.lastDebugHit (history handle calls) ∧
            (d.contains decorator.region = true →
              d.bounds? decorator.region = some (layout.hoverBounds box)) ∧
            (d.contains decorator.headingRegion = true →
              d.bounds? decorator.headingRegion = some layout.heading)) ∧
      s.keys.Nodup ∧
      ∀ (decorator : Decorator) (box statement : Rectangle) (hasBreakpoint : Bool),
        let after := (decorator.arrange s.canvas box statement hasBreakpoint).2
        Diagram.SameBut decorator.keys d after.diagram ∧
          after.spotlight = s.canvas.spotlight ∧ after.pointer = s.canvas.pointer := by
  intro start s d
  obtain ⟨out, removed, htidy⟩ := (tidy_empty start.canvas rfl).run hcareful
    (by rwa [List.length_nil, Nat.zero_add])
  refine ⟨fun handle decorator hdecorator => ?_, htidy.nodup,
    fun decorator box statement hasBreakpoint => ?_⟩
  · have hstep := htidy.inStep hdecorator
    refine ⟨hstep.isSome_eq, fun layout hlayout box hbox => ?_⟩
    have hdrawn := hstep.drawn layout hlayout box hbox
    exact ⟨hdrawn.debugHit_eq, hdrawn.region.bounds_eq, hdrawn.heading.bounds_eq⟩
  · exact ⟨Decorator.sameBut_arrange htidy.recorded.sound decorator box statement hasBreakpoint,
      rfl, rfl⟩

/-- A halt mark is set before a decorator inside another one is laid out.  The outer one is
unmounted, which takes both, and a third decorator takes over their slots.  Then the owner of
the inner one goes on laying it out, in vain: the third decorator shows what it was asked. -/
theorem layouts_in_step_after_reuse :
    let outer : RegionKey := .fresh 1
    let box : Rectangle := ⟨80, 100, 220, 150⟩
    let calls : List Call :=
      [.mount none {}, .mount (some outer) {}, .decorator 1 (.setDebugHit true),
        .decorator 1 (.arrange ⟨90, 120, 100, 50⟩ ⟨90, 120, 100, 40⟩ true),
        .decorator 0 (.arrange ⟨10, 20, 400, 300⟩ ⟨10, 20, 400, 200⟩ false),
        .canvas (.operate (.event (.move (some ⟨100, 130⟩) 0))), .decorator 0 .unmount,
        .mount none {}, .decorator 2 (.arrange box ⟨80, 100, 220, 100⟩ true),
        .decorator 1 (.arrange ⟨0, 0, 50, 50⟩ ⟨0, 0, 50, 40⟩ false),
        .decorator 2 (.setDebugHit true)]
    let s := ({} : Scene).run calls
    let d := s.canvas.diagram
    Along perform Careful {} calls ∧ (handouts {} calls).length ≤ 0x80000000 ∧
      s.keys.Nodup ∧
      ∃ decorator layout, s.decorators[2]? = some decorator ∧ decorator.layout? = some layout ∧
        decorator.keys = [(RegionKey.fresh 4).renewed, (RegionKey.fresh 3).renewed] ∧
        layout.debugHit = true ∧ d.bounds? decorator.region = some (layout.hoverBounds box) ∧
        d.bounds? decorator.headingRegion = some layout.heading := by
  intro outer box calls
  have hcareful : Along perform Careful {} calls := by decide
  have hroom : (handouts {} calls).length ≤ 0x80000000 := by decide
  obtain ⟨hinStep, hnodup, -⟩ := layouts_in_step {} hcareful hroom
  obtain ⟨decorator, hdecorator⟩ :
      ∃ decorator, (({} : Scene).run calls).decorators[2]? = some decorator :=
    Option.isSome_iff_exists.mp (by decide)
  have hkeys : (({} : Scene).run calls).decorators[2]?.map Decorator.keys =
      some [(RegionKey.fresh 4).renewed, (RegionKey.fresh 3).renewed] := by decide
  rw [hdecorator, Option.map_some, Option.some.injEq] at hkeys
  obtain ⟨hregion, hheading⟩ : decorator.region = (RegionKey.fresh 4).renewed ∧
      decorator.headingRegion = (RegionKey.fresh 3).renewed := by simpa [Decorator.keys] using hkeys
  obtain ⟨hlaidOut, hdrawn⟩ := hinStep 2 decorator hdecorator
  obtain ⟨layout, hlayout⟩ := Option.isSome_iff_exists.mp (hlaidOut.trans (by decide))
  obtain ⟨hmark, hbounds, hheadingBounds⟩ := hdrawn layout hlayout box rfl
  rw [hregion] at hbounds
  rw [hheading] at hheadingBounds
  refine ⟨hcareful, hroom, hnodup, decorator, layout, hdecorator, hlayout, hkeys, hmark, ?_, ?_⟩
  · rw [hregion]
    exact hbounds (by decide)
  · rw [hheading]
    exact hheadingBounds (by decide)

end Scene

end NestedHover
