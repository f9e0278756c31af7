import NestedHover.Proofs.Spotlight.Mentions
import Mathlib.Data.List.Nodup

/-!
# Who is registered

Calls enter regions into the registry and take them out without looking at anything else
that a spotlight keeps, so runs of the same calls from states with the same registered
regions end with the same registered regions.  In a coherent state the registered regions,
the holder of the highlight and the pending change determine the whole registry.  Two runs
are therefore compared by these three.

Main results:

- Theorem {lit}`registered_run_congr`: who is registered after a run depends only on the
  calls and on who was registered before it.
- Theorem {lit}`registry_eq_of_highlight_eq`: the registered regions and the way in which
  they stand make up the registry.
- Theorem {lit}`Coherent.registry_eq`: coherent states with the same registered regions, the
  same holder and the same pending change have the same registry.
-/

namespace NestedHover

/-! ## The keys of a registry -/

namespace Registry

variable {α : Type} {r q : Registry α} {key : RegionKey}

/-- The registered keys, by increasing slot. -/
def keys (r : Registry α) : List RegionKey := r.entries.map Prod.fst

theorem mem_keys_iff : key ∈ r.keys ↔ r.contains key = true := by
  rw [contains, Option.isSome_iff_exists, keys, List.mem_map]
  constructor
  · rintro ⟨e, he, rfl⟩
    exact ⟨e.2, get?_eq_some_iff.mpr he⟩
  · rintro ⟨value, hvalue⟩
    exact ⟨(key, value), get?_eq_some_iff.mp hvalue, rfl⟩

@[simp] theorem keys_mapEntries (f : RegionKey → α → α) (r : Registry α) :
    (r.mapEntries f).keys = r.keys := by
  simp [keys, mapEntries]

@[simp] theorem keys_update (r : Registry α) (key : RegionKey) (value : α) :
    (r.update key value).keys = r.keys :=
  keys_mapEntries _ r

@[simp] theorem keys_fill (r : Registry α) (value : α) : (r.fill value).keys = r.keys :=
  keys_mapEntries _ r

theorem keys_erase (r : Registry α) (key : RegionKey) :
    (r.erase key).keys = r.keys.filter fun k => k ≠ key := by
  rw [keys, keys, List.filter_map]
  rfl

/-- Where a key is entered depends on the keys that are there. -/
private theorem map_fst_enter {value value' : α} {es fs : List (RegionKey × α)}
    (h : es.map Prod.fst = fs.map Prod.fst) :
    (enter key value es).map Prod.fst = (enter key value' fs).map Prod.fst := by
  induction es generalizing fs with
  | nil =>
      have hfs : fs = [] := by simpa using h.symm
      simp [hfs, enter]
  | cons e rest ih =>
      cases fs with
      | nil => cases h
      | cons f others =>
          obtain ⟨hkey, hrest⟩ : e.1 = f.1 ∧ rest.map Prod.fst = others.map Prod.fst := by
            simpa using h
          simp only [enter, hkey]
          split
          · simp [hkey, hrest]
          · split
            · split <;> simp [hkey, hrest]
            · simp [hkey, ih hrest]

theorem keys_insert_congr (h : r.keys = q.keys) (key : RegionKey) (value : α) :
    (r.insert key value).keys = (q.insert key value).keys := by
  unfold insert
  split
  · exact h
  · exact map_fst_enter h

/-- The keys come by increasing slot. -/
theorem pairwise_keys (r : Registry α) : r.keys.Pairwise fun k l => k.index < l.index :=
  List.pairwise_map.mpr r.ordered

/-- No two registered keys share a slot. -/
theorem nodup_index_keys (r : Registry α) : (r.keys.map RegionKey.index).Nodup :=
  List.pairwise_map.mpr (r.pairwise_keys.imp Nat.ne_of_lt)

/-- A registered key is the only one from its slot. -/
theorem eq_of_index_eq {other : RegionKey} (hkey : r.contains key = true)
    (hother : r.contains other = true) (hindex : key.index = other.index) : key = other :=
  List.inj_on_of_nodup_map r.nodup_index_keys (mem_keys_iff.mpr hkey) (mem_keys_iff.mpr hother)
    hindex

/-- Registries in which the same keys are registered list them in the same order. -/
theorem keys_eq_of_contains_eq (h : ∀ key, r.contains key = q.contains key) :
    r.keys = q.keys := by
  have hperm : r.keys.Perm q.keys := by
    refine (List.perm_ext_iff_of_nodup r.nodup_index_keys.of_map
      q.nodup_index_keys.of_map).mpr fun key => ?_
    rw [mem_keys_iff, mem_keys_iff, h]
  refine hperm.eq_of_pairwise ?_ r.pairwise_keys q.pairwise_keys
  intro k l _ _ hlt hgt
  exact absurd hgt (Nat.lt_asymm hlt)

/-- Registries with the same keys and the same values under them are the same. -/
theorem eq_of_keys_eq (hkeys : r.keys = q.keys) {f : RegionKey → α}
    (hr : ∀ e ∈ r.entries, e.2 = f e.1) (hq : ∀ e ∈ q.entries, e.2 = f e.1) : r = q := by
  have hentries {p : Registry α} (hp : ∀ e ∈ p.entries, e.2 = f e.1) :
      p.entries = p.keys.map fun key => (key, f key) := by
    rw [keys, List.map_map]
    refine (List.map_id p.entries).symm.trans (List.map_congr_left ?_)
    intro e he
    exact Prod.ext rfl (hp e he)
  have hsame : r.entries = q.entries := by rw [hentries hr, hentries hq, hkeys]
  cases r
  cases q
  simpa using hsame

end Registry

namespace Spotlight

variable {s t : Spotlight} {region : RegionKey} {call : Operation}

/-! ## The registered regions -/

/-- The registered regions, by increasing slot. -/
def registered (s : Spotlight) : List RegionKey := s.registry.keys

/-- States in which the same regions are registered list them in the same order. -/
theorem registered_eq_of_isRegistered_eq
    (h : ∀ key, s.isRegistered key = t.isRegistered key) : s.registered = t.registered :=
  Registry.keys_eq_of_contains_eq h

theorem isRegistered_congr (h : s.registered = t.registered) (key : RegionKey) :
    s.isRegistered key = t.isRegistered key := by
  rw [Bool.eq_iff_iff]
  calc
    s.isRegistered key = true ↔ key ∈ s.registered := Registry.mem_keys_iff.symm
    _ ↔ key ∈ t.registered := by rw [h]
    _ ↔ t.isRegistered key = true := Registry.mem_keys_iff

@[simp] theorem registered_setHighlight (s : Spotlight) (region : RegionKey)
    (h : Highlight) : (s.setHighlight region h).registered = s.registered :=
  Registry.keys_update s.registry region h

@[simp] theorem registered_disarm (s : Spotlight) : s.disarm.registered = s.registered := rfl

@[simp] theorem registered_cancelPending (s : Spotlight) :
    s.cancelPending.registered = s.registered := by
  rcases cancelPending_cases s with h | ⟨region, mark, h⟩ <;> simp [h]

@[simp] theorem registered_activateNow (s : Spotlight) (region : RegionKey) :
    (s.activateNow region).2.registered = s.registered := by
  unfold activateNow
  split
  · simp
  · cases s.active <;> simp [registered, setHighlight]

@[simp] theorem registered_schedule (s : Spotlight) (pending : Pending) (now : Instant) :
    (s.schedule pending now).2.registered = s.registered := rfl

@[simp] theorem registered_activate (s : Spotlight) (region : RegionKey) :
    (s.activate region).2.registered = s.registered := by
  unfold activate
  split <;> simp

@[simp] theorem registered_activateLater (s : Spotlight) (region : RegionKey)
    (now : Instant) : (s.activateLater region now).2.registered = s.registered := by
  unfold activateLater
  split
  · dsimp only
    split <;> simp
  · rfl

@[simp] theorem registered_deactivateLater (s : Spotlight) (region : RegionKey)
    (now : Instant) : (s.deactivateLater region now).2.registered = s.registered := by
  unfold deactivateLater
  split
  · dsimp only
    split <;> simp
  · rfl

@[simp] theorem registered_tick (s : Spotlight) (now : Instant) :
    (s.tick now).2.registered = s.registered := by
  unfold tick
  split
  · split <;> simp
  · split
    · exact registered_setHighlight s.disarm _ .hidden
    · rfl
  · rfl

theorem registered_register_congr (h : s.registered = t.registered) (region : RegionKey) :
    (s.register region).registered = (t.register region).registered := by
  unfold register
  rw [isRegistered_congr h region]
  split
  · exact h
  · exact Registry.keys_insert_congr h region .hidden

theorem registered_deregister (s : Spotlight) (region : RegionKey) :
    (s.deregister region).registered = s.registered.filter fun key => key ≠ region :=
  Registry.keys_erase s.registry region

/-- Whether a call enters a region into the registry. -/
def Operation.isRegistration : Operation → Bool
  | .register _ => true
  | _ => false

/-- Whether a call takes a region out of the registry. -/
def Operation.isDeregistration : Operation → Bool
  | .deregister _ => true
  | _ => false

/-- All other calls leave the registered regions. -/
theorem registered_perform (hregister : call.isRegistration = false)
    (hderegister : call.isDeregistration = false) :
    (s.perform call).2.registered = s.registered := by
  cases call with
  | configure settings => rfl
  | register region => cases hregister
  | deregister region => cases hderegister
  | activate region => exact registered_activate s region
  | activateLater region now => exact registered_activateLater s region now
  | deactivateLater region now => exact registered_deactivateLater s region now
  | tick now => exact registered_tick s now
  | reset => exact Registry.keys_fill s.registry .hidden

/-- Who is registered after a call depends only on the call and on who was registered
before it. -/
theorem registered_perform_congr (h : s.registered = t.registered) (call : Operation) :
    (s.perform call).2.registered = (t.perform call).2.registered := by
  cases hregister : call.isRegistration with
  | true =>
      cases call with
      | register region => exact registered_register_congr h region
      | _ => cases hregister
  | false =>
      cases hderegister : call.isDeregistration with
      | true =>
          cases call with
          | deregister region =>
              rw [perform, perform, registered_deregister, registered_deregister, h]
          | _ => cases hderegister
      | false =>
          rw [registered_perform hregister hderegister,
            registered_perform hregister hderegister, h]

/-- Who is registered after a run depends only on the calls and on who was registered
before it. -/
theorem registered_run_congr (h : s.registered = t.registered) (calls : List Operation) :
    (s.run calls).registered = (t.run calls).registered := by
  induction calls generalizing s t with
  | nil => exact h
  | cons call rest ih => exact ih (registered_perform_congr h call)

/-- Whether a call pushes a region out of the registry depends on the registered regions. -/
theorem evicts_congr (h : s.registered = t.registered) (call : Operation) :
    s.evicts call = t.evicts call := by
  cases call with
  | register region =>
      have hafter := registered_register_congr h region
      have hevicts (u : Spotlight) : u.evicts (.register region) =
          u.registered.any fun key => !(u.register region).isRegistered key := by
        simp [evicts, registered, Registry.keys, List.any_map, Function.comp_def]
      rw [hevicts, hevicts, h]
      simp only [isRegistered_congr hafter]
  | _ => rfl

/-! ## Coherent states -/

/-- The registered regions and the way in which they stand make up the registry. -/
theorem registry_eq_of_highlight_eq (hregistered : s.registered = t.registered)
    (hhighlight : ∀ key, s.highlight key = t.highlight key) : s.registry = t.registry := by
  have hstands (u : Spotlight) : ∀ e ∈ u.registry.entries, e.2 = u.highlight e.1 := by
    intro e he
    rw [highlight, Registry.get?_eq_some_iff.mpr he]
    rfl
  apply Registry.eq_of_keys_eq hregistered (hstands s)
  rw [funext hhighlight]
  exact hstands t

/-- States that differ in their registries at most are the same, if the same regions are
registered and stand in the same way. -/
theorem eq_of_registry (heq : s = { t with registry := s.registry })
    (hregistered : ∀ key, s.isRegistered key = t.isRegistered key)
    (hhighlight : ∀ key, s.highlight key = t.highlight key) : s = t := by
  have hregistry : s.registry = t.registry :=
    registry_eq_of_highlight_eq (registered_eq_of_isRegistered_eq hregistered) hhighlight
  rw [heq, hregistry]

/-- Coherent states with the same registered regions, the same holder and the same pending
change have the same registry. -/
theorem Coherent.registry_eq (hs : Coherent s) (ht : Coherent t)
    (hregistered : s.registered = t.registered) (hactive : s.active = t.active)
    (hpending : s.pending? = t.pending?) : s.registry = t.registry := by
  apply registry_eq_of_highlight_eq hregistered
  intro key
  rw [hs.highlight_eq key, ht.highlight_eq key, hactive, hpending]

/-- In a coherent state the holder of the highlight is shown, and nobody else. -/
theorem Coherent.isShown_iff (h : Coherent s) (key : RegionKey) :
    (s.highlight key).isShown = true ↔ s.active = some key := by
  rw [h.highlight_eq key, standing]
  by_cases hwaiting : s.pending? = some (.activate key)
  · simp [hwaiting, h.active_ne_of_pending hwaiting, Highlight.isShown]
  · by_cases hactive : s.active = some key
    · rw [if_neg hwaiting, if_pos hactive]
      split <;> simp [hactive, Highlight.isShown]
    · simp [hwaiting, hactive, Highlight.isShown]

end Spotlight

end NestedHover
