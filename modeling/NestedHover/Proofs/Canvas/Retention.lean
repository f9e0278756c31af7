import NestedHover.Proofs.Canvas.References
import NestedHover.Proofs.Region.Wear

/-!
# Registrations of live regions are kept

A driver that removes regions need not deregister them.  Their keys then stay in the
registry and hold slots there that the pool has given to other regions.  When such a slot's
new occupant is registered it must push the old key out, and the registry refuses a key that
it takes for the older one, comparing versions along the circle.

It never takes a live key for older.  As long as fewer than {lit}`0x40000000` removals (2^30)
have been made all versions lie on one half of the circle, and there the live key of a slot is
the latest that the slot has had.

Main results:

- Theorem {lit}`Tracked.isRegistered_register_self`: registering a live key registers it,
  whoever else from its slot is registered.
- Theorem {lit}`Tracked.alter`: every change keeps the registered keys among those handed
  out.
- Theorems {lit}`mem_keys_alter` and {lit}`isRegistered_alter`: a live key stays live until
  it is removed, and registered until it is removed or deregistered.
- Theorem {lit}`live_registration_kept`: all of this in every run of changes.
-/

namespace NestedHover

namespace Canvas

/-! ## Changes by a driver that may forget to deregister -/

/-- A change to the diagram or to the spotlight alone.  Whatever a decorator or a router
does to the two is a sequence of these. -/
inductive Change where
  | diagram (operation : Diagram.Operation)
  | spotlight (operation : Spotlight.Operation)
deriving DecidableEq

/-- The canvas after one change. -/
def alter (c : Canvas) : Change → Canvas
  | .diagram operation => { c with diagram := c.diagram.perform operation }
  | .spotlight operation => { c with spotlight := (c.spotlight.perform operation).2 }

/-- The key that a change registers. -/
def Change.registered? : Change → Option RegionKey
  | .spotlight (.register key) => some key
  | _ => none

/-- The key that a change deregisters. -/
def Change.deregistered? : Change → Option RegionKey
  | .spotlight (.deregister key) => some key
  | _ => none

/-- The keys of the regions that a change removes. -/
def dropped (c : Canvas) : Change → List RegionKey
  | .diagram (.remove key) => (c.diagram.remove key).1
  | _ => []

/-- A change that registers a live key, if it registers one. -/
def RegistersLive (c : Canvas) (change : Change) : Prop :=
  ∀ key ∈ change.registered?, c.diagram.contains key = true

instance (c : Canvas) (change : Change) : Decidable (c.RegistersLive change) :=
  inferInstanceAs (Decidable (∀ key ∈ change.registered?, c.diagram.contains key = true))

/-- A change that neither deregisters a key nor removes its region. -/
def Keeps (key : RegionKey) (c : Canvas) (change : Change) : Prop :=
  change.deregistered? ≠ some key ∧ key ∉ c.dropped change

instance (key : RegionKey) (c : Canvas) (change : Change) : Decidable (Keeps key c change) :=
  inferInstanceAs (Decidable (_ ∧ _))

/-- A change after which the diagram holds no more regions than there are slots for. -/
def HasRoom (c : Canvas) (change : Change) : Prop :=
  (c.alter change).diagram.size < RegionKey.noIndex

/-- How many removals a change makes: one, if it removes any region. -/
def wear (c : Canvas) (change : Change) : Nat := if c.dropped change = [] then 0 else 1

/-- How many removals a sequence of changes makes. -/
def removals : Canvas → List Change → Nat
  | _, [] => 0
  | c, change :: rest => c.wear change + removals (c.alter change) rest

theorem removals_append (c : Canvas) (first second : List Change) :
    c.removals (first ++ second) = c.removals first + (first.foldl alter c).removals second := by
  induction first generalizing c with
  | nil => simp [removals]
  | cons change rest ih =>
      rw [List.cons_append, removals, removals, ih, List.foldl_cons, Nat.add_assoc]

variable {c : Canvas} {change : Change} {key other : RegionKey} {n : Nat}

/-! ## Registered keys have been handed out -/

/-- After the given number of removals every registered key is among those that the diagram
has handed out. -/
structure Tracked (n : Nat) (c : Canvas) : Prop where
  sound : c.diagram.Sound
  worn : c.diagram.Worn n
  issued : ∀ key, c.spotlight.isRegistered key = true → c.diagram.Issued key

theorem tracked_empty (settings : Settings) : Tracked 0 { spotlight := { settings } } where
  sound := Diagram.sound_empty
  worn := Diagram.worn_empty
  issued _ hregistered := absurd hregistered nofun

/-- Registering a live key registers it, if it names a region at all: whoever else from its
slot is registered was there before. -/
theorem Tracked.isRegistered_register_self (h : Tracked n c) (hn : n < 0x40000000)
    (hlive : key ∈ c.diagram.forest.keys) (hnull : key.isNull = false) :
    (c.spotlight.register key).isRegistered key = true := by
  apply Spotlight.isRegistered_register_of_not_isOlder hnull
  intro other hother hindex
  obtain ⟨latest, hlatest, hslot, hreached⟩ := h.issued other hother
  obtain rfl : latest = key :=
    h.sound.eq_of_index_eq hlatest (Diagram.mem_slots_of_mem_keys hlive) (hslot.trans hindex)
  have hversion := h.worn.live_lt latest hlive
  exact RegionKey.isOlder_eq_false_of_le hreached (by omega)

/-- What carries over to a changed diagram while the spotlight stays as it is. -/
theorem Tracked.of_issued_imp (h : Tracked n c) {operation : Diagram.Operation} {m : Nat}
    (hworn : (c.diagram.perform operation).Worn m)
    (hissued : ∀ key, c.diagram.Issued key → (c.diagram.perform operation).Issued key) :
    Tracked m (c.alter (.diagram operation)) where
  sound := h.sound.perform operation
  worn := hworn
  issued key hregistered := hissued key (h.issued key hregistered)

/-- Every change keeps the registered keys among those that have been handed out. -/
theorem Tracked.alter (h : Tracked n c) (hn : n < 0x40000000)
    (hlawful : c.RegistersLive change) : Tracked (n + c.wear change) (c.alter change) := by
  cases change with
  | diagram operation =>
      cases operation with
      | insert parent kind bounds =>
          cases hinsert : c.diagram.insert? parent kind bounds with
          | none =>
              apply h.of_issued_imp <;> simp only [Diagram.perform, hinsert]
              · exact h.worn
              · exact fun _ => id
          | some result =>
              apply h.of_issued_imp <;> simp only [Diagram.perform, hinsert]
              · exact h.worn.insert? h.sound hn hinsert
              · intro key hissued
                exact hissued.insert?_of_version_lt h.sound (by omega) h.worn.version_lt hinsert
      | remove key =>
          have hissued : ∀ other, c.diagram.Issued other →
              (c.diagram.remove key).2.Issued other := fun other hother =>
            hother.remove h.sound key
          by_cases hnone : (c.diagram.remove key).1 = []
          · have hsame : (c.diagram.remove key).2 = c.diagram :=
              Diagram.remove_snd_of_eq_nil hnone
            have hwear : c.wear (.diagram (.remove key)) = 0 := if_pos hnone
            have hworn : (c.diagram.remove key).2.Worn n := by
              rw [hsame]
              exact h.worn
            rw [hwear]
            exact h.of_issued_imp hworn hissued
          · have hwear : c.wear (.diagram (.remove key)) = 1 := if_neg hnone
            rw [hwear]
            exact h.of_issued_imp (h.worn.remove h.sound key) hissued
      | setBounds key bounds =>
          exact h.of_issued_imp (h.worn.setBounds key bounds) fun other hother =>
            hother.setBounds key bounds
  | spotlight operation =>
      refine ⟨h.sound, h.worn, ?_⟩
      intro key hregistered
      rcases Spotlight.isRegistered_of_perform hregistered with rfl | hbefore
      · exact Diagram.issued_of_mem_keys (Diagram.contains_eq_true_iff.mp (hlawful key rfl))
      · exact h.issued key hbefore

theorem Tracked.foldl {changes : List Change} (h : Tracked n c)
    (hlawful : Along Canvas.alter RegistersLive c changes)
    (hn : n + c.removals changes < 0x40000000) :
    Tracked (n + c.removals changes) (changes.foldl Canvas.alter c) := by
  induction changes generalizing n c with
  | nil => exact h
  | cons change rest ih =>
      rw [removals, ← Nat.add_assoc] at hn ⊢
      exact ih (h.alter (by omega) hlawful.1) hlawful.2 hn

/-! ## A live region stays registered -/

theorem sound_alter (hsound : c.diagram.Sound) (change : Change) :
    (c.alter change).diagram.Sound := by
  cases change with
  | diagram operation => exact hsound.perform operation
  | spotlight operation => exact hsound

/-- A live key stays live until its region is removed. -/
theorem mem_keys_alter (hsound : c.diagram.Sound) (hkeeps : Keeps key c change)
    (hlive : key ∈ c.diagram.forest.keys) : key ∈ (c.alter change).diagram.forest.keys := by
  cases change with
  | spotlight operation => exact hlive
  | diagram operation =>
      cases operation with
      | insert parent kind bounds =>
          cases hinsert : c.diagram.insert? parent kind bounds with
          | none => simpa [Canvas.alter, Diagram.perform, hinsert] using hlive
          | some result =>
              simpa [Canvas.alter, Diagram.perform, hinsert] using
                (Diagram.mem_keys_insert?_iff hsound hinsert).mpr (Or.inr hlive)
      | remove other => exact (Diagram.mem_keys_remove_iff hsound).mpr ⟨hlive, hkeeps.2⟩
      | setBounds other bounds => simpa [Canvas.alter, Diagram.perform, Diagram.setBounds]

/-- A live key that is registered stays so until it is deregistered or removed. -/
theorem isRegistered_alter (hsound : c.diagram.Sound) (hlawful : c.RegistersLive change)
    (hkeeps : Keeps key c change) (hlive : key ∈ c.diagram.forest.keys)
    (hregistered : c.spotlight.isRegistered key = true) :
    (c.alter change).spotlight.isRegistered key = true := by
  cases change with
  | diagram operation => exact hregistered
  | spotlight operation =>
      cases operation with
      | register other =>
          have hother := Diagram.contains_eq_true_iff.mp (hlawful other rfl)
          exact Spotlight.isRegistered_register_of_live hsound hother hlive hregistered
      | deregister other =>
          apply Spotlight.isRegistered_perform hregistered _ rfl
          rintro ⟨⟩
          exact hkeeps.1 rfl
      | _ => exact Spotlight.isRegistered_perform hregistered nofun rfl

/-- A live key that is registered is still registered after every run that neither
deregisters nor removes it. -/
theorem isRegistered_foldl {changes : List Change} (hsound : c.diagram.Sound)
    (hlawful : Along Canvas.alter RegistersLive c changes)
    (hkeeps : Along Canvas.alter (Keeps key) c changes) (hlive : key ∈ c.diagram.forest.keys)
    (hregistered : c.spotlight.isRegistered key = true) :
    (changes.foldl Canvas.alter c).spotlight.isRegistered key = true := by
  have hboth := foldl_of_along
    (I := fun c => c.diagram.Sound ∧ key ∈ c.diagram.forest.keys ∧
      c.spotlight.isRegistered key = true)
    (fun c change ⟨hsound, hlive, hregistered⟩ ⟨hlawful, hkeeps⟩ =>
      ⟨sound_alter hsound change, mem_keys_alter hsound hkeeps hlive,
        isRegistered_alter hsound hlawful hkeeps hlive hregistered⟩)
    ⟨hsound, hlive, hregistered⟩ (along_and.mpr ⟨hlawful, hkeeps⟩)
  exact hboth.2.2

/-! ## Live keys name regions -/

theorem roomy_alter (hsound : c.diagram.Sound) (h : c.diagram.Roomy) (hroom : HasRoom c change) :
    (c.alter change).diagram.Roomy := by
  cases change with
  | diagram operation => exact h.perform hsound hroom
  | spotlight operation => exact h

/-- While the diagram holds no more regions than there are slots for, all of its keys name
regions. -/
theorem roomy_foldl {changes : List Change} (hsound : c.diagram.Sound) (h : c.diagram.Roomy)
    (hroom : Along Canvas.alter HasRoom c changes) :
    (changes.foldl Canvas.alter c).diagram.Roomy := by
  have hboth := foldl_of_along (I := fun c => c.diagram.Sound ∧ c.diagram.Roomy)
    (fun _ change ⟨hsound, hroomy⟩ hroom =>
      ⟨sound_alter hsound change, roomy_alter hsound hroomy hroom⟩) ⟨hsound, h⟩ hroom
  exact hboth.2

/-! ## Runs -/

/-- In every run of changes that registers live keys only, whether or not removed regions are
deregistered, and with fewer than {lit}`0x40000000` removals: registering a key makes it
registered, if it names a region at all, whoever else from its slot is registered; it stays
registered over all changes to come until one of them deregisters it or removes its region;
and whoever loses its registration by that is not live.  The key does name a region, as long
as the diagram never holds more regions than there are slots for. -/
theorem live_registration_kept (settings : Settings) {changes : List Change}
    (hlawful : Along alter RegistersLive { spotlight := { settings } } changes)
    (hremovals : removals { spotlight := { settings } } changes < 0x40000000) :
    let start : Canvas := { spotlight := { settings } }
    ∀ earlier key later, changes = earlier ++ .spotlight (.register key) :: later →
      let before := earlier.foldl alter start
      let after := before.alter (.spotlight (.register key))
      (Along alter HasRoom start earlier → key.isNull = false) ∧
        (key.isNull = false →
          after.spotlight.isRegistered key = true ∧
            ∀ first second, later = first ++ second → Along alter (Keeps key) after first →
              (first.foldl alter after).spotlight.isRegistered key = true) ∧
        ∀ other, before.spotlight.isRegistered other = true →
          after.spotlight.isRegistered other = false →
          before.diagram.contains other = false := by
  rintro start earlier key later rfl before after
  obtain ⟨hearlier, hregister, hlater⟩ := along_append.mp hlawful
  have hfew : start.removals earlier < 0x40000000 := by
    rw [removals_append] at hremovals
    exact Nat.lt_of_le_of_lt (Nat.le_add_right _ _) hremovals
  have htracked : Tracked (0 + start.removals earlier) before :=
    (tracked_empty settings).foldl hearlier (by rwa [Nat.zero_add])
  have hlive : key ∈ before.diagram.forest.keys :=
    Diagram.contains_eq_true_iff.mp (hregister key rfl)
  refine ⟨?_, ?_, ?_⟩
  · intro hroom
    have hroomy : before.diagram.Roomy :=
      roomy_foldl Diagram.sound_empty Diagram.roomy_empty hroom
    exact hroomy.isNull_eq_false htracked.sound hlive
  · intro hnull
    have hregistered : after.spotlight.isRegistered key = true :=
      htracked.isRegistered_register_self (by omega) hlive hnull
    refine ⟨hregistered, ?_⟩
    rintro first second rfl hkeeps
    obtain ⟨hfirst, -⟩ := along_append.mp hlater
    exact isRegistered_foldl htracked.sound hfirst hkeeps hlive hregistered
  · intro other hother hlost
    rw [Diagram.contains_eq_false_iff]
    intro hstill
    rw [← Bool.not_eq_true] at hlost
    exact hlost
      (Spotlight.isRegistered_register_of_live htracked.sound hlive hstill hother)

/-- A region is removed and stays registered; another one gets its slot, is registered in its
place and stays so while the rest of the diagram is removed. -/
theorem registration_kept_after_reuse :
    let stale : RegionKey := .fresh 1
    let key := stale.renewed
    let earlier : List Change :=
      [.diagram (.insert none .focusable .unplaced), .spotlight (.register stale),
        .spotlight (.activate stale), .diagram (.insert none .focusable .unplaced),
        .spotlight (.register (.fresh 2)), .diagram (.remove stale),
        .diagram (.insert none .decoration .unplaced)]
    let later : List Change := [.spotlight .reset, .diagram (.remove (.fresh 2))]
    let start : Canvas := {}
    let before := earlier.foldl alter start
    let after := before.alter (.spotlight (.register key))
    let c := later.foldl alter after
    removals start (earlier ++ .spotlight (.register key) :: later) < 0x40000000 ∧
      before.spotlight.isRegistered stale = true ∧ after.spotlight.isRegistered stale = false ∧
      before.diagram.contains stale = false ∧
      after.spotlight.isRegistered key = true ∧ c.spotlight.isRegistered key = true := by
  intro stale key earlier later start before after c
  have hlawful : Along alter RegistersLive start
      (earlier ++ .spotlight (.register key) :: later) := by decide
  have hremovals : removals start (earlier ++ .spotlight (.register key) :: later) <
      0x40000000 := by decide
  obtain ⟨-, hregistered, hlost⟩ :=
    live_registration_kept {} hlawful hremovals earlier key later rfl
  obtain ⟨hafter, hkept⟩ := hregistered rfl
  have hbefore : before.spotlight.isRegistered stale = true := by decide
  have hpushed : after.spotlight.isRegistered stale = false := by decide
  exact ⟨hremovals, hbefore, hpushed, hlost stale hbefore hpushed, hafter,
    hkept later [] (List.append_nil _).symm (by decide)⟩

end Canvas

end NestedHover
