import NestedHover.Proofs.Canvas.Operations
import NestedHover.Proofs.Spotlight.Mentions

/-!
# No dangling references

A driver of a canvas keeps to two rules.  It registers only keys of live regions, and when
it removes regions it deregisters at once what was removed.  Otherwise it does what it
likes: requests may name any key, live, gone or never handed out, and they may fail.

A spotlight is called anchored in a diagram if every registered key is live and the
spotlight names only registered keys.  Two live regions never share a slot, so a live key
that is being registered finds its slot free in the registry, however often that slot has
been used before.

Main results:

- Theorem {lit}`Anchored.isRegistered_register`: registering a live key pushes nobody out of
  the registry.
- Theorem {lit}`IsAnchored.serve`: every call by the rules keeps the spotlight anchored, and
  a registration ends only with a call that deregisters the key.
- Theorems {lit}`IsAnchored.foldl` and {lit}`IsAnchored.isRegistered_foldl`: the same of
  runs.
- Theorem {lit}`names_only_live`: all of this in every state that a run by the rules reaches
  from an empty canvas.
-/

namespace NestedHover

namespace Spotlight

variable {s : Spotlight} {d next : Diagram} {key other : RegionKey}

/-! ## Spotlights that are anchored in a diagram -/

/-- The slots of the diagram are in order, every registered key is live, and only
registered keys are named. -/
structure Anchored (s : Spotlight) (d : Diagram) : Prop where
  sound : d.Sound
  live : ∀ key, s.isRegistered key = true → key ∈ d.forest.keys
  grounded : Grounded s

/-- Registering a live key leaves the registration of every other live key. -/
theorem isRegistered_register_of_mem_keys (hsound : d.Sound) (hlive : key ∈ d.forest.keys)
    (hother : other ∈ d.forest.keys) (hne : other ≠ key) :
    (s.register key).isRegistered other = s.isRegistered other :=
  isRegistered_register_of_index_ne s fun hindex =>
    hne (hsound.eq_of_mem_keys hother hlive hindex)

/-- Registering a live key pushes no live key out of the registry. -/
theorem isRegistered_register_of_live (hsound : d.Sound) (hlive : key ∈ d.forest.keys)
    (hother : other ∈ d.forest.keys) (hregistered : s.isRegistered other = true) :
    (s.register key).isRegistered other = true := by
  by_cases hkey : other = key
  · subst hkey
    simp [Spotlight.register, hregistered]
  · rwa [isRegistered_register_of_mem_keys hsound hlive hother hkey]

/-- Registering a live key pushes nobody out of the registry: all registered keys are live. -/
theorem Anchored.isRegistered_register (h : Anchored s d) (hlive : key ∈ d.forest.keys)
    (hother : s.isRegistered other = true) : (s.register key).isRegistered other = true :=
  isRegistered_register_of_live h.sound hlive (h.live other hother) hother

/-- Registering a live key registers it, if the key names a region at all. -/
theorem Anchored.isRegistered_register_self (h : Anchored s d)
    (hlive : key ∈ d.forest.keys) (hnull : key.isNull = false) :
    (s.register key).isRegistered key = true := by
  apply isRegistered_register_of_not_isOlder hnull
  intro other hother hindex
  obtain rfl : other = key := h.sound.eq_of_mem_keys (h.live other hother) hlive hindex
  exact other.isOlder_self

/-- Registering a live key leaves every highlight. -/
theorem Anchored.highlight_register (h : Anchored s d) (hlive : key ∈ d.forest.keys)
    (other : RegionKey) : (s.register key).highlight other = s.highlight other := by
  cases hafter : (s.register key).isRegistered other with
  | true => exact highlight_register_of_isRegistered hafter
  | false =>
      have hbefore : s.isRegistered other = false := by
        rw [← Bool.not_eq_true] at hafter ⊢
        exact fun hother => hafter (h.isRegistered_register hlive hother)
      rw [highlight_of_not_registered hafter, highlight_of_not_registered hbefore]

/-- No call on the spotlight that registers live keys only pushes anybody out of the
registry. -/
theorem Anchored.evicts_eq_false (h : Anchored s d) {operation : Operation}
    (hlawful : ∀ key, operation = .register key → key ∈ d.forest.keys) :
    s.evicts operation = false := by
  cases operation with
  | register key =>
      apply List.any_eq_false.mpr
      intro e he
      have hentry : s.isRegistered e.1 = true := by
        simp [isRegistered, Registry.contains, Registry.get?_eq_some_iff.mpr he]
      simp [h.isRegistered_register (hlawful key rfl) hentry]
  | _ => rfl

/-- Such a call keeps the spotlight anchored. -/
theorem Anchored.perform (h : Anchored s d) (operation : Operation)
    (hlawful : ∀ key, operation = .register key → key ∈ d.forest.keys) :
    Anchored (s.perform operation).2 d where
  sound := h.sound
  live key hregistered := by
    rcases isRegistered_of_perform hregistered with hnew | hold
    · exact hlawful key hnew
    · exact h.live key hold
  grounded := h.grounded.perform (h.evicts_eq_false hlawful)

theorem Anchored.enroll (h : Anchored s d) (hlive : key ∈ d.forest.keys)
    (kind : RegionKind) : Anchored (s.enroll key kind) d := by
  unfold Spotlight.enroll
  split
  · apply h.perform (.register key)
    rintro other ⟨⟩
    exact hlive
  · exact h

theorem Anchored.isRegistered_enroll (h : Anchored s d) (hlive : key ∈ d.forest.keys)
    (kind : RegionKind) (hother : s.isRegistered other = true) :
    (s.enroll key kind).isRegistered other = true := by
  unfold Spotlight.enroll
  split
  · exact h.isRegistered_register hlive hother
  · exact hother

theorem Anchored.foldl_deregister (h : Anchored s d) (regions : List RegionKey) :
    Anchored (regions.foldl Spotlight.deregister s) d :=
  List.foldlRecOn (motive := fun t => Anchored t d) regions Spotlight.deregister h
    fun _ hanchored region _ => hanchored.perform (.deregister region) nofun

/-- What a decision about a crossing calls for keeps the spotlight anchored. -/
theorem Anchored.follow (h : Anchored s d) (decision : Decision) (now : Instant) :
    Anchored (s.follow decision now).2 d := by
  cases decision with
  | ignored => exact h
  | activate region => exact h.perform (.activate region) nofun
  | activateLater region => exact h.perform (.activateLater region now) nofun
  | deactivateLater region => exact h.perform (.deactivateLater region now) nofun

theorem Anchored.followAll (h : Anchored s d) (decisions : List Decision) (now : Instant) :
    Anchored (s.followAll now decisions).2 d :=
  followAll_of_follow (I := fun t => Anchored t d)
    (fun _ decision hanchored => hanchored.follow decision now) h decisions

/-! ## Changes to the diagram -/

theorem Anchored.insert? (h : Anchored s d) {parent : Option RegionKey} {kind : RegionKind}
    {bounds : Rectangle} (hinsert : d.insert? parent kind bounds = some (key, next)) :
    Anchored s next where
  sound := h.sound.insert? hinsert
  live other hother := (Diagram.mem_keys_insert?_iff h.sound hinsert).mpr
    (Or.inr (h.live other hother))
  grounded := h.grounded

/-- Adding a region keeps the spotlight anchored, whether or not the addition is refused. -/
theorem Anchored.add (h : Anchored s d) (parent : Option RegionKey) (kind : RegionKind)
    (bounds : Rectangle) : Anchored s (d.perform (.insert parent kind bounds)) := by
  cases hinsert : d.insert? parent kind bounds with
  | none => simpa [Diagram.perform, hinsert] using h
  | some result => simpa [Diagram.perform, hinsert] using h.insert? hinsert

/-- Removing regions keeps the spotlight anchored, once what was removed has been
deregistered. -/
theorem Anchored.remove (h : Anchored s d) (key : RegionKey) :
    Anchored ((d.remove key).1.foldl Spotlight.deregister s) (d.remove key).2 where
  sound := h.sound.remove key
  live other hother := by
    obtain ⟨hregistered, hstays⟩ := isRegistered_foldl_deregister_iff.mp hother
    exact (Diagram.mem_keys_remove_iff h.sound).mpr ⟨h.live other hregistered, hstays⟩
  grounded := (h.foldl_deregister _).grounded

theorem Anchored.setBounds (h : Anchored s d) (key : RegionKey) (bounds : Rectangle) :
    Anchored s (d.setBounds key bounds).2 where
  sound := h.sound.setBounds key bounds
  live other hother := by
    have hlive := h.live other hother
    rw [← Diagram.contains_eq_true_iff] at hlive ⊢
    rwa [Diagram.contains_setBounds]
  grounded := h.grounded

end Spotlight

namespace Canvas

variable {c : Canvas} {key : RegionKey}

/-! ## Calls by a driver that keeps to the rules -/

/-- A call of a driver that keeps the diagram and the spotlight in step by itself. -/
inductive Call where
  /-- A routine call; those that add regions register them if they are focusable. -/
  | operate (operation : Operation)
  /-- Adds a region without registering it. -/
  | add (parent : Option RegionKey) (kind : RegionKind) (bounds : Rectangle)
  /-- Any call on the spotlight alone. -/
  | request (operation : Spotlight.Operation)
  /-- Has any region decide about any crossing. -/
  | handle (owner : RegionKey) (crossing : Crossing) (now : Instant)
  /-- Has the owner of its target decide about any crossing. -/
  | dispatch (crossing : Crossing) (now : Instant)
deriving DecidableEq

/-- The canvas after one call. -/
def serve (c : Canvas) : Call → Canvas
  | .operate operation => c.step operation
  | .add parent kind bounds =>
      { c with diagram := c.diagram.perform (.insert parent kind bounds) }
  | .request operation => { c with spotlight := (c.spotlight.perform operation).2 }
  | .handle owner crossing now =>
      { c with spotlight := (c.spotlight.handle c.diagram owner crossing now).2 }
  | .dispatch crossing now =>
      { c with spotlight := (c.spotlight.dispatch c.diagram crossing now).2 }

/-- The key that a call registers by name. -/
def Call.registered? : Call → Option RegionKey
  | .request (.register key) => some key
  | _ => none

/-- A call that registers a live key, if it registers one by name. -/
def Lawful (c : Canvas) (call : Call) : Prop :=
  ∀ key ∈ call.registered?, c.diagram.contains key = true

instance (c : Canvas) (call : Call) : Decidable (c.Lawful call) :=
  inferInstanceAs (Decidable (∀ key ∈ call.registered?, c.diagram.contains key = true))

/-- The keys that a call deregisters. -/
def deregistered (c : Canvas) : Call → List RegionKey
  | .request (.deregister key) => [key]
  | .operate (.discard key) => (c.diagram.remove key).1
  | .operate (.unmount decorator) => (c.diagram.remove decorator.region).1
  | _ => []

/-- A call that does not deregister the given key. -/
def Spares (key : RegionKey) (c : Canvas) (call : Call) : Prop := key ∉ c.deregistered call

instance (key : RegionKey) (c : Canvas) (call : Call) : Decidable (Spares key c call) :=
  inferInstanceAs (Decidable (¬ _))

/-! ## Every call keeps the spotlight anchored -/

/-- The spotlight of a canvas is anchored in its diagram. -/
def IsAnchored (c : Canvas) : Prop := c.spotlight.Anchored c.diagram

theorem isAnchored_empty (settings : Settings) : IsAnchored { spotlight := { settings } } where
  sound := Diagram.sound_empty
  live _ hregistered := absurd hregistered nofun
  grounded := (Spotlight.blank_fresh settings).grounded

/-- Adding a region and registering it, if it is focusable, ends no registration. -/
theorem IsAnchored.insert (h : IsAnchored c) (parent : Option RegionKey) (kind : RegionKind)
    (bounds : Rectangle) :
    IsAnchored (c.insert parent kind bounds) ∧
      ∀ key, c.spotlight.isRegistered key = true →
        (c.insert parent kind bounds).spotlight.isRegistered key = true := by
  cases hinsert : c.diagram.insert? parent kind bounds with
  | none =>
      have hsame : c.insert parent kind bounds = c :=
        insert_of_eq_none (by simp [hinsert])
      rw [hsame]
      exact ⟨h, fun _ => id⟩
  | some result =>
      rcases result with ⟨key, next⟩
      have hstate : c.insert parent kind bounds = { c with
          diagram := next
          spotlight := c.spotlight.enroll key kind } := by
        simp [Canvas.insert, hinsert]
      have hgrown : c.spotlight.Anchored next := Spotlight.Anchored.insert? h hinsert
      have hlive : key ∈ next.forest.keys :=
        (Diagram.mem_keys_insert?_iff h.sound hinsert).mpr (Or.inl rfl)
      rw [hstate]
      exact ⟨hgrown.enroll hlive kind, fun _ => hgrown.isRegistered_enroll hlive kind⟩

/-- Removing regions and deregistering what was removed ends no other registration. -/
theorem IsAnchored.discard (h : IsAnchored c) (removed : RegionKey) :
    IsAnchored (c.discard removed) ∧
      ∀ key, key ∉ (c.diagram.remove removed).1 → c.spotlight.isRegistered key = true →
        (c.discard removed).spotlight.isRegistered key = true :=
  ⟨Spotlight.Anchored.remove h removed, fun _ hstays hregistered =>
    Spotlight.isRegistered_foldl_deregister_iff.mpr ⟨hregistered, hstays⟩⟩

/-- What happens while the diagram stays as it is ends no registration. -/
theorem IsAnchored.after (h : IsAnchored c) (event : Event) :
    IsAnchored (c.after event) ∧
      ∀ key, c.spotlight.isRegistered key = true →
        (c.after event).spotlight.isRegistered key = true := by
  refine ⟨?_, fun key hregistered => by rwa [isRegistered_after h.sound]⟩
  cases event with
  | move position now =>
      change Spotlight.Anchored (c.spotlight.dispatchAll c.diagram now _).2 c.diagram
      rw [Spotlight.dispatchAll_eq_followAll h.sound]
      exact Spotlight.Anchored.followAll h _ now
  | tick now => exact Spotlight.Anchored.perform h (.tick now) nofun

/-- A routine call keeps the spotlight anchored, and every registered key that it spares
stays registered. -/
theorem IsAnchored.step (h : IsAnchored c) (operation : Operation) :
    IsAnchored (c.step operation) ∧
      ∀ key, Spares key c (.operate operation) → c.spotlight.isRegistered key = true →
        (c.step operation).spotlight.isRegistered key = true := by
  cases operation with
  | insert parent kind bounds =>
      obtain ⟨hanchored, hkeeps⟩ := h.insert parent kind bounds
      exact ⟨hanchored, fun key _ => hkeeps key⟩
  | mount parent dimensions =>
      cases hmount : Decorator.mount? c parent dimensions with
      | none =>
          have hsame : c.step (.mount parent dimensions) = c := by
            simp [Canvas.step, perform, hmount]
          rw [hsame]
          exact ⟨h, fun _ _ => id⟩
      | some mounted =>
          rcases mounted with ⟨decorator, next⟩
          have hnext : c.step (.mount parent dimensions) = next := by
            simp [Canvas.step, perform, hmount]
          rcases mount?_eq_insert hmount with ⟨middle, -, rfl, -, rfl⟩
          obtain ⟨hfirst, hkeeps⟩ := h.insert parent .focusable .unplaced
          obtain ⟨hsecond, hkeeps'⟩ :=
            hfirst.insert (some decorator.region) .decoration .unplaced
          rw [hnext]
          exact ⟨hsecond, fun key _ hregistered => hkeeps' key (hkeeps key hregistered)⟩
  | place key bounds =>
      exact ⟨Spotlight.Anchored.setBounds h key bounds, fun _ _ => id⟩
  | arrange decorator box statement hasBreakpoint =>
      rcases arrange_eq_place decorator c box statement hasBreakpoint with
        ⟨bounds, heading, hnext⟩
      change IsAnchored (decorator.arrange c box statement hasBreakpoint).2 ∧ _
      rw [hnext]
      have hfirst := Spotlight.Anchored.setBounds h decorator.region bounds
      exact ⟨Spotlight.Anchored.setBounds hfirst decorator.headingRegion heading,
        fun _ _ => id⟩
  | discard key => exact h.discard key
  | unmount decorator => exact h.discard decorator.region
  | forget key => exact ⟨h, fun _ _ => id⟩
  | configure settings =>
      exact ⟨Spotlight.Anchored.perform h (.configure settings) nofun, fun _ _ => id⟩
  | event event =>
      obtain ⟨hanchored, hkeeps⟩ := h.after event
      exact ⟨hanchored, fun key _ => hkeeps key⟩

/-- A call by the rules keeps the spotlight anchored, and every registered key that it
spares stays registered. -/
theorem IsAnchored.serve (h : IsAnchored c) {call : Call} (hlawful : c.Lawful call) :
    IsAnchored (c.serve call) ∧
      ∀ key, Spares key c call → c.spotlight.isRegistered key = true →
        (c.serve call).spotlight.isRegistered key = true := by
  cases call with
  | operate operation => exact h.step operation
  | add parent kind bounds =>
      exact ⟨Spotlight.Anchored.add h parent kind bounds, fun _ _ => id⟩
  | request operation =>
      have hlive : ∀ key, operation = .register key → key ∈ c.diagram.forest.keys := by
        rintro key rfl
        exact Diagram.contains_eq_true_iff.mp (hlawful key rfl)
      refine ⟨Spotlight.Anchored.perform h operation hlive, ?_⟩
      intro key hspared hregistered
      apply Spotlight.isRegistered_perform hregistered
      · rintro rfl
        exact hspared (List.mem_singleton.mpr rfl)
      · exact Spotlight.Anchored.evicts_eq_false h hlive
  | handle owner crossing now =>
      refine ⟨Spotlight.Anchored.follow h _ now, ?_⟩
      intro key _ hregistered
      exact (Spotlight.isRegistered_follow c.spotlight _ now key).trans hregistered
  | dispatch crossing now =>
      have hstate : c.serve (.dispatch crossing now) = { c with
          spotlight := (c.spotlight.follow (c.diagram.decision crossing) now).2 } := by
        rw [← Spotlight.dispatch_eq_follow h.sound, Canvas.serve]
      rw [hstate]
      refine ⟨Spotlight.Anchored.follow h _ now, ?_⟩
      intro key _ hregistered
      exact (Spotlight.isRegistered_follow c.spotlight _ now key).trans hregistered

/-! ## Runs -/

/-- A run by the rules keeps the spotlight anchored. -/
theorem IsAnchored.foldl (h : IsAnchored c) {calls : List Call}
    (hlawful : Along Canvas.serve Lawful c calls) : IsAnchored (calls.foldl Canvas.serve c) :=
  foldl_of_along (fun _ _ hanchored hcall => (hanchored.serve hcall).1) h hlawful

/-- A registered key that every call of a run by the rules spares stays registered. -/
theorem IsAnchored.isRegistered_foldl (h : IsAnchored c) {calls : List Call}
    (hlawful : Along Canvas.serve Lawful c calls)
    (hspared : Along Canvas.serve (Spares key) c calls)
    (hregistered : c.spotlight.isRegistered key = true) :
    (calls.foldl Canvas.serve c).spotlight.isRegistered key = true := by
  have hboth := foldl_of_along
    (I := fun c => IsAnchored c ∧ c.spotlight.isRegistered key = true)
    (fun c call hc hcall =>
      ⟨(hc.1.serve hcall.1).1, (hc.1.serve hcall.1).2 key hcall.2 hc.2⟩)
    ⟨h, hregistered⟩ (along_and.mpr ⟨hlawful, hspared⟩)
  exact hboth.2

/-- In every state that a run by the rules reaches from an empty canvas, whichever keys its
requests name and whichever of them fail: every registered key is live; the holder of the
highlight and the region of the pending change are registered and live; a key that was
registered after some of the calls is still registered unless a later call deregistered it;
and registering a live key pushes nobody out of the registry and makes it registered, if it
names a region at all. -/
theorem names_only_live (settings : Settings) {calls : List Call}
    (hlawful : Along serve Lawful { spotlight := { settings } } calls) :
    let start : Canvas := { spotlight := { settings } }
    let c := calls.foldl serve start
    (∀ key, c.spotlight.isRegistered key = true → c.diagram.contains key = true) ∧
      (∀ key, c.spotlight.active = some key →
        c.spotlight.isRegistered key = true ∧ c.diagram.contains key = true) ∧
      (∀ pending, c.spotlight.pending? = some pending →
        c.spotlight.isRegistered pending.region = true ∧
          c.diagram.contains pending.region = true) ∧
      (∀ earlier later key, calls = earlier ++ later →
        (earlier.foldl serve start).spotlight.isRegistered key = true →
        Along serve (Spares key) (earlier.foldl serve start) later →
        c.spotlight.isRegistered key = true) ∧
      ∀ key, c.diagram.contains key = true →
        (∀ other, c.spotlight.isRegistered other = true →
          (c.spotlight.register key).isRegistered other = true) ∧
        (key.isNull = false → (c.spotlight.register key).isRegistered key = true) := by
  intro start c
  have hanchored : IsAnchored c := (isAnchored_empty settings).foldl hlawful
  have hlive : ∀ key, c.spotlight.isRegistered key = true →
      c.diagram.contains key = true := fun key hregistered =>
    Diagram.contains_eq_true_iff.mpr (hanchored.live key hregistered)
  refine ⟨hlive, ?_, ?_, ?_, ?_⟩
  · intro key hactive
    have hregistered := hanchored.grounded.active_registered key hactive
    exact ⟨hregistered, hlive key hregistered⟩
  · intro pending hpending
    have hregistered := hanchored.grounded.pending_registered pending hpending
    exact ⟨hregistered, hlive _ hregistered⟩
  · rintro earlier later key rfl hregistered hspared
    obtain ⟨hbefore, hafter⟩ := along_append.mp hlawful
    have hmiddle : IsAnchored (earlier.foldl serve start) :=
      (isAnchored_empty settings).foldl hbefore
    have hstill := hmiddle.isRegistered_foldl hafter hspared hregistered
    rwa [← List.foldl_append] at hstill
  · intro key hcontained
    have hmem := Diagram.contains_eq_true_iff.mp hcontained
    exact ⟨fun other hother => hanchored.isRegistered_register hmem hother,
      hanchored.isRegistered_register_self hmem⟩

/-- A region waits for the highlight as it is removed, and its slot goes to another region
that is registered in its place.  Then the old key asks for the highlight in vain, and the
decorator that was mounted first is named alone. -/
theorem names_decorator_after_reuse :
    let first : List Call := [.operate (.mount none {})]
    let rest : List Call :=
      [.request (.activate (.fresh 1)),
        .operate (.insert (some (.fresh 1)) .focusable ⟨20, 40, 100, 100⟩),
        .request (.activateLater (.fresh 3) 0), .operate (.discard (.fresh 3)),
        .add (some (.fresh 2)) .decoration .unplaced,
        .request (.register (RegionKey.fresh 3).renewed), .request (.activate (.fresh 3)),
        .dispatch (.leave (.fresh 2) none) 10]
    let c := (first ++ rest).foldl serve {}
    Along serve Lawful {} (first ++ rest) ∧
      Along serve (Spares (.fresh 1)) (first.foldl serve {}) rest ∧
      c.spotlight.isRegistered (.fresh 1) = true ∧
      c.spotlight.pending? = some (.deactivate (.fresh 1)) ∧
      c.diagram.contains (.fresh 1) = true := by
  intro first rest c
  have hlawful : Along serve Lawful {} (first ++ rest) := by decide
  have hspared : Along serve (Spares (.fresh 1)) (first.foldl serve {}) rest := by decide
  have hregistered : (first.foldl serve {}).spotlight.isRegistered (.fresh 1) = true := by
    decide
  have hpending : c.spotlight.pending? = some (.deactivate (.fresh 1)) := by decide
  obtain ⟨-, -, hnamed, hkept, -⟩ := names_only_live {} hlawful
  exact ⟨hlawful, hspared, hkept first rest _ rfl hregistered hspared, hpending,
    (hnamed _ hpending).2⟩

end Canvas

end NestedHover
