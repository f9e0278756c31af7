import NestedHover.Proofs.Region.Slots
import NestedHover.Proofs.Runs

/-!
# The wear of slots

A slot gets another occupant only after a removal has freed it.  So the versions in a diagram
stay below twice the number of removals and two, and after fewer than {lit}`0x40000000`
removals (2^30) all of them lie on one half of the circle, where the later of two versions is
never taken for the older one.

A slot is opened only while all others are in use.  So a diagram that never holds more regions
than there are slots for never hands out the key that names none.

Main results:

- Theorems {lit}`Worn.insert?` and {lit}`Worn.remove`: adding regions wears no slot, and
  removing some wears each by one at most.
- Theorem {lit}`RegionKey.isOlder_eq_false_of_le`: how versions compare on one half of the
  circle.
- Theorem {lit}`Roomy.run`: along a run of changes that fit every slot opened has a number
  that a region may have.
-/

namespace NestedHover

/-- On one half of the circle the smaller version is the older one. -/
theorem RegionKey.isOlder_eq_false_of_le {k l : RegionKey}
    (hle : l.version.toNat ≤ k.version.toNat) (hlt : k.version.toNat < 0x80000000) :
    k.isOlder l = false := by
  have hdistance : (k.version - l.version).toNat = k.version.toNat - l.version.toNat :=
    UInt32.toNat_sub_of_le _ _ hle
  apply decide_eq_false
  rw [hdistance]
  omega

/-- Taking a key out of the pool gives nothing back. -/
theorem KeyPool.mem_returned_of_advance {pool : KeyPool} {key : RegionKey}
    (h : key ∈ pool.advance.returned) : key ∈ pool.returned := by
  unfold KeyPool.advance at h
  split at h
  · rename_i hreturned
    rw [hreturned]
    exact List.mem_cons_of_mem _ h
  · exact h

namespace Diagram

variable {d next : Diagram} {key : RegionKey} {removals : Nat}

/-! ## The wear of the slots -/

/-- After the given number of removals no slot has changed hands more often than that. -/
structure Worn (removals : Nat) (d : Diagram) : Prop where
  live_lt : ∀ key ∈ d.forest.keys, key.version.toNat < 2 * removals + 2
  returned_lt : ∀ key ∈ d.pool.returned, key.version.toNat < 2 * removals

theorem worn_empty : Worn 0 {} where
  live_lt _ hkey := absurd hkey List.not_mem_nil
  returned_lt _ hkey := absurd hkey List.not_mem_nil

theorem Worn.version_lt (h : Worn removals d) :
    ∀ key ∈ d.slots, key.version.toNat < 2 * (removals + 1) := by
  intro key hkey
  rcases List.mem_append.mp hkey with hlive | hreturned
  · have hlt := h.live_lt key hlive
    omega
  · have hlt := h.returned_lt key hreturned
    omega

/-- Adding a region wears no slot: one that was given back was freed by a removal. -/
theorem Worn.insert? (hsound : d.Sound) (h : Worn removals d) (hn : removals < 0x40000000)
    {parent : Option RegionKey} {kind : RegionKind} {bounds : Rectangle}
    (hinsert : d.insert? parent kind bounds = some (key, next)) : Worn removals next := by
  obtain ⟨hkey, hpool, -⟩ := insert?_cases hsound hinsert
  constructor
  · intro other hother
    rcases (mem_keys_insert?_iff hsound hinsert).mp hother with rfl | hold
    · cases hreturned : d.pool.returned with
      | nil =>
          have hfresh : other = .fresh (d.pool.opened + 1) := by
            rw [hkey, KeyPool.next, hreturned]
          have hone : other.version.toNat = 1 := by
            rw [hfresh]
            rfl
          omega
      | cons old rest =>
          have hrenewed : other = old.renewed := by rw [hkey, KeyPool.next, hreturned]
          have hlt := h.returned_lt old (hreturned ▸ List.mem_cons_self)
          rw [hrenewed, toNat_version_renewed (by omega) hlt]
          omega
    · exact h.live_lt other hold
  · intro other hother
    rw [hpool] at hother
    exact h.returned_lt other (KeyPool.mem_returned_of_advance hother)

/-- Removing wears the slots that it frees by one. -/
theorem Worn.remove (hsound : d.Sound) (h : Worn removals d) (key : RegionKey) :
    Worn (removals + 1) (d.remove key).2 := by
  constructor
  · intro other hother
    have hlt := h.live_lt other ((mem_keys_remove_iff hsound).mp hother).1
    omega
  · intro other hother
    have hslot : other ∈ (d.remove key).2.slots := List.mem_append.mpr (Or.inr hother)
    exact h.version_lt other ((slots_remove hsound key).mem_iff.mp hslot)

theorem Worn.setBounds (h : Worn removals d) (key : RegionKey) (bounds : Rectangle) :
    Worn removals (d.setBounds key bounds).2 where
  live_lt other hother := h.live_lt other (by simpa [Diagram.setBounds] using hother)
  returned_lt := h.returned_lt

/-- Removing what is not live changes nothing. -/
theorem remove_snd_of_eq_nil (h : (d.remove key).1 = []) : (d.remove key).2 = d := by
  unfold remove at h ⊢
  split at h
  · cases h
  · rfl

/-! ## Room for another region -/

/-- The opened slots are those of the latest keys, and the slot that no region may have is
not among them. -/
structure Roomy (d : Diagram) : Prop where
  length_slots : d.slots.length = d.pool.opened
  opened_lt : d.pool.opened < RegionKey.noIndex

theorem roomy_empty : Roomy {} := ⟨rfl, by decide⟩

/-- A slot is opened only while all others are in use. -/
theorem Roomy.insert? (hsound : d.Sound) (h : Roomy d) {parent : Option RegionKey}
    {kind : RegionKind} {bounds : Rectangle}
    (hinsert : d.insert? parent kind bounds = some (key, next))
    (hsize : next.size < RegionKey.noIndex) : Roomy next := by
  obtain ⟨-, hpool, -⟩ := insert?_cases hsound hinsert
  have hadded : next.forest.keys.length = d.forest.keys.length + 1 :=
    (perm_keys_insert? hsound hinsert).length_eq
  have hopened := h.opened_lt
  have hfilled := h.length_slots
  simp only [slots, List.length_append] at hfilled
  cases hreturned : d.pool.returned with
  | nil =>
      have hlive : next.size = next.forest.keys.length := (List.length_map _).symm
      simp only [hreturned, List.length_nil] at hfilled
      constructor
      · simpa [slots, hpool, KeyPool.advance, hreturned, hadded] using hfilled
      · simp only [hpool, KeyPool.advance, hreturned]
        omega
  | cons old rest =>
      simp only [hreturned, List.length_cons] at hfilled
      constructor
      · simp only [slots, hpool, KeyPool.advance, hreturned, List.length_append, hadded]
        omega
      · simpa [hpool, KeyPool.advance, hreturned] using hopened

theorem Roomy.remove (hsound : d.Sound) (h : Roomy d) (key : RegionKey) :
    Roomy (d.remove key).2 where
  length_slots := by
    rw [(slots_remove hsound key).length_eq, opened_remove hsound]
    exact h.length_slots
  opened_lt := by
    rw [opened_remove hsound]
    exact h.opened_lt

theorem Roomy.setBounds (h : Roomy d) (key : RegionKey) (bounds : Rectangle) :
    Roomy (d.setBounds key bounds).2 where
  length_slots := by
    rw [slots_setBounds]
    exact h.length_slots
  opened_lt := h.opened_lt

/-- A change after which the diagram holds no more regions than there are slots for. -/
def Fits (d : Diagram) (operation : Operation) : Prop :=
  (d.perform operation).size < RegionKey.noIndex

instance (d : Diagram) (operation : Operation) : Decidable (d.Fits operation) :=
  inferInstanceAs (Decidable (_ < _))

theorem Roomy.perform (hsound : d.Sound) (h : Roomy d) {operation : Operation}
    (hfits : d.Fits operation) : Roomy (d.perform operation) := by
  cases operation with
  | insert parent kind bounds =>
      cases hinsert : d.insert? parent kind bounds with
      | none => simpa [Diagram.perform, hinsert] using h
      | some result =>
          simp only [Fits, Diagram.perform, hinsert] at hfits
          simpa [Diagram.perform, hinsert] using h.insert? hsound hinsert hfits
  | remove key => exact h.remove hsound key
  | setBounds key bounds => exact h.setBounds key bounds

/-- A run of changes that fit opens no slot with the number that no region may have. -/
theorem Roomy.run (hsound : d.Sound) (h : Roomy d) {operations : List Operation}
    (hfit : Along Diagram.perform Fits d operations) : Roomy (d.run operations) := by
  have hboth := foldl_of_along (I := fun d => d.Sound ∧ d.Roomy)
    (fun _ operation ⟨hsound, hroomy⟩ hfits =>
      ⟨hsound.perform operation, hroomy.perform hsound hfits⟩) ⟨hsound, h⟩ hfit
  exact hboth.2

/-- In a diagram with room every live key names a region. -/
theorem Roomy.isNull_eq_false (hsound : d.Sound) (h : Roomy d) (hlive : key ∈ d.forest.keys) :
    key.isNull = false := by
  have hindex := hsound.opened key (mem_slots_of_mem_keys hlive)
  have hopened := h.opened_lt
  apply decide_eq_false
  omega

end Diagram

end NestedHover
