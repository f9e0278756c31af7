import NestedHover.Proofs.Region.Surgery
import NestedHover.Region.Diagram
import NestedHover.Region.SlotMap
import Mathlib.Data.List.Perm.Basic

/-!
# Slots and keys of a diagram

A slot that has been opened either holds a live region or waits in the pool under
the key of its last occupant.  So the live keys and the returned ones together name
every opened slot once, and no two live regions ever share a slot.  This holds after
every run of changes to a diagram.

A slot's version grows by two with each new occupant.  As long as fewer than
{lit}`0x80000000` regions (2^31) have been added no version wraps around, so a key that was
handed out once never comes out again.

Main results:

- Theorem {lit}`sound_run`: after every run of changes the slots of live and returned
  keys are distinct.
- Theorems {lit}`insert?_cases` and {lit}`remove_cases`: everything that adding and
  removing can do to a diagram.
- Theorem {lit}`not_issued_next`: the key that comes out next has not been handed out
  before.
- Theorems {lit}`Issued.insert?`, {lit}`Issued.remove` and {lit}`Issued.setBounds`: a
  key that has been handed out stays so.
-/

namespace NestedHover

namespace Diagram

/-! ## Runs of changes -/

/-- A change to a diagram. -/
inductive Operation where
  | insert (parent : Option RegionKey) (kind : RegionKind) (bounds : Rectangle)
  | remove (key : RegionKey)
  | setBounds (key : RegionKey) (bounds : Rectangle)
deriving DecidableEq, Repr

/-- Makes one change; adding below a region that is not live changes nothing. -/
def perform (d : Diagram) : Operation → Diagram
  | .insert parent kind bounds => ((d.insert? parent kind bounds).map Prod.snd).getD d
  | .remove key => (d.remove key).2
  | .setBounds key bounds => (d.setBounds key bounds).2

/-- The diagram after a sequence of changes. -/
def run (d : Diagram) (operations : List Operation) : Diagram :=
  operations.foldl perform d

theorem run_append (d : Diagram) (first second : List Operation) :
    d.run (first ++ second) = (d.run first).run second :=
  List.foldl_append

/-! ## One key for each slot -/

/-- The latest key of each opened slot: those of the live regions and those that
were given back. -/
def slots (d : Diagram) : List RegionKey := d.forest.keys ++ d.pool.returned

/-- The pool supplies the keys of the live regions, so every opened slot has one latest
key. -/
abbrev Sound (d : Diagram) : Prop := d.pool.Supplies d.forest.keys

theorem sound_empty : Sound {} := KeyPool.supplies_empty

variable {d next : Diagram} {key other : RegionKey}

theorem mem_slots_of_mem_keys (h : key ∈ d.forest.keys) : key ∈ d.slots :=
  List.mem_append.mpr (Or.inl h)

/-- No two live regions have one key. -/
theorem Sound.nodup_keys (h : d.Sound) : d.forest.keys.Nodup := h.nodup_held

/-- A slot has only one latest key. -/
theorem Sound.eq_of_index_eq (h : d.Sound) (hkey : key ∈ d.slots)
    (hother : other ∈ d.slots) (hindex : key.index = other.index) : key = other :=
  List.inj_on_of_nodup_map h.nodup hkey hother hindex

/-- No two live regions share a slot. -/
theorem Sound.eq_of_mem_keys (h : d.Sound) (hkey : key ∈ d.forest.keys)
    (hother : other ∈ d.forest.keys) (hindex : key.index = other.index) : key = other :=
  KeyPool.Supplies.eq_of_index_eq h hkey hother hindex

/-- What carries over to a diagram whose slots carry the same numbers. -/
theorem Sound.of_perm (h : d.Sound)
    (hperm : (next.slots.map RegionKey.index).Perm (d.slots.map RegionKey.index))
    (hopened : next.pool.opened = d.pool.opened) : next.Sound where
  nodup := hperm.nodup_iff.mpr h.nodup
  opened k hk := by
    have hindex : k.index ∈ d.slots.map RegionKey.index :=
      hperm.mem_iff.mp (List.mem_map_of_mem hk)
    rcases List.mem_map.mp hindex with ⟨old, hold, heq⟩
    rw [hopened, ← heq]
    exact h.opened old hold

/-! ## Adding a region -/

/-- Everything that adding a region does: the key is the next one of the pool, the
region is inserted into the paint order, and nobody else's way up changes. -/
theorem insert?_cases (hsound : d.Sound) {parent : Option RegionKey}
    {kind : RegionKind} {bounds : Rectangle}
    (h : d.insert? parent kind bounds = some (key, next)) :
    key = d.pool.next ∧ next.pool = d.pool.advance ∧
      (∃ before after, d.forest.regions = before ++ after ∧
        next.forest.regions = before ++ ⟨key, kind, bounds⟩ :: after) ∧
      ∀ other, other ≠ key → next.forest.path? other = d.forest.path? other := by
  cases parent with
  | none =>
      simp only [insert?, Option.some.injEq, Prod.mk.injEq] at h
      rcases h with ⟨rfl, rfl⟩
      exact ⟨rfl, rfl, ⟨d.forest.regions, [], by simp, by simp⟩,
        fun other hne => Forest.path?_plant_of_ne d.forest hne⟩
  | some parent =>
      simp only [insert?] at h
      split at h
      · rename_i hlive
        simp only [Option.some.injEq, Prod.mk.injEq] at h
        rcases h with ⟨rfl, rfl⟩
        exact ⟨rfl, rfl,
          Forest.regions_graft _ hsound.nodup_keys (contains_eq_true_iff.mp hlive),
          fun other hne => Forest.path?_graft_of_ne d.forest hne⟩
      · cases h

/-- The live regions after adding one. -/
theorem mem_regions_insert?_iff (hsound : d.Sound) {parent : Option RegionKey}
    {kind : RegionKind} {bounds : Rectangle}
    (h : d.insert? parent kind bounds = some (key, next)) {r : Region} :
    r ∈ next.forest.regions ↔ r = ⟨key, kind, bounds⟩ ∨ r ∈ d.forest.regions := by
  rcases insert?_cases hsound h with ⟨-, -, ⟨before, after, hold, hnew⟩, -⟩
  rw [hold, hnew, List.perm_middle.mem_iff, List.mem_cons]

theorem mem_keys_insert?_iff (hsound : d.Sound) {parent : Option RegionKey}
    {kind : RegionKind} {bounds : Rectangle}
    (h : d.insert? parent kind bounds = some (key, next)) :
    other ∈ next.forest.keys ↔ other = key ∨ other ∈ d.forest.keys := by
  simp only [Forest.keys, List.mem_map, mem_regions_insert?_iff hsound h]
  constructor
  · rintro ⟨r, rfl | hr, rfl⟩
    · exact Or.inl rfl
    · exact Or.inr ⟨r, hr, rfl⟩
  · rintro (rfl | ⟨r, hr, rfl⟩)
    · exact ⟨_, Or.inl rfl, rfl⟩
    · exact ⟨r, Or.inr hr, rfl⟩

theorem perm_keys_insert? (hsound : d.Sound) {parent : Option RegionKey}
    {kind : RegionKind} {bounds : Rectangle}
    (h : d.insert? parent kind bounds = some (key, next)) :
    next.forest.keys.Perm (key :: d.forest.keys) := by
  rcases insert?_cases hsound h with ⟨-, -, ⟨before, after, hold, hnew⟩, -⟩
  rw [Forest.keys, Forest.keys, hold, hnew, List.map_append, List.map_cons, List.map_append]
  exact List.perm_middle

/-- The slots after adding a region: it takes over a slot that was given back, under
the renewed key, or opens a new one. -/
theorem slots_insert? (hsound : d.Sound) {parent : Option RegionKey}
    {kind : RegionKind} {bounds : Rectangle}
    (h : d.insert? parent kind bounds = some (key, next)) :
    ∃ others, next.slots.Perm (key :: others) ∧
      ((∃ old, d.slots.Perm (old :: others) ∧ key = old.renewed ∧
          next.pool.opened = d.pool.opened) ∨
        (d.slots = others ∧ key = .fresh (d.pool.opened + 1) ∧
          next.pool.opened = d.pool.opened + 1)) := by
  rcases insert?_cases hsound h with ⟨hkey, hpool, -, -⟩
  have hslots : next.slots.Perm (key :: (d.forest.keys ++ d.pool.advance.returned)) := by
    rw [slots, hpool]
    exact (perm_keys_insert? hsound h).append_right _
  refine ⟨_, hslots, ?_⟩
  cases hreturned : d.pool.returned with
  | nil =>
      right
      refine ⟨?_, ?_, ?_⟩
      · simp [slots, KeyPool.advance, hreturned]
      · simp [hkey, KeyPool.next, hreturned]
      · simp [hpool, KeyPool.advance, hreturned]
  | cons old rest =>
      left
      refine ⟨old, ?_, ?_, ?_⟩
      · simp only [slots, KeyPool.advance, hreturned]
        exact List.perm_middle
      · simp [hkey, KeyPool.next, hreturned]
      · simp [hpool, KeyPool.advance, hreturned]

theorem Sound.insert? (hsound : d.Sound) {parent : Option RegionKey}
    {kind : RegionKind} {bounds : Rectangle}
    (h : d.insert? parent kind bounds = some (key, next)) : next.Sound := by
  rcases insert?_cases hsound h with ⟨hkey, hpool, -, -⟩
  have hperm := perm_keys_insert? hsound h
  rw [Sound, hpool]
  rw [hkey] at hperm
  exact hsound.advance.of_perm hperm

/-- The key of an added region was not live before. -/
theorem not_mem_keys_of_insert? (hsound : d.Sound) {parent : Option RegionKey}
    {kind : RegionKind} {bounds : Rectangle}
    (h : d.insert? parent kind bounds = some (key, next)) : key ∉ d.forest.keys := by
  rcases insert?_cases hsound h with ⟨-, -, ⟨before, after, hold, hnew⟩, -⟩
  have hnodup := (hsound.insert? h).nodup_keys
  rw [Forest.keys, hnew, List.map_append, List.map_cons, List.nodup_middle] at hnodup
  rw [Forest.keys, hold, List.map_append]
  exact hnodup.notMem

/-- The key of an added region belongs to a slot that no other live region holds. -/
theorem index_ne_of_insert? (hsound : d.Sound) {parent : Option RegionKey}
    {kind : RegionKind} {bounds : Rectangle}
    (h : d.insert? parent kind bounds = some (key, next))
    (hother : other ∈ d.forest.keys) : other.index ≠ key.index := by
  intro hindex
  have hnew : key ∈ next.forest.keys := (mem_keys_insert?_iff hsound h).mpr (Or.inl rfl)
  have hold : other ∈ next.forest.keys :=
    (mem_keys_insert?_iff hsound h).mpr (Or.inr hother)
  have hsame : other = key :=
    (hsound.insert? h).eq_of_mem_keys hold hnew hindex
  rw [hsame] at hother
  exact not_mem_keys_of_insert? hsound h hother

/-! ## Removing regions -/

/-- Everything that removing does: the removed regions are one stretch of the paint
order, their keys are given back in that order, and nobody else's way up changes. -/
theorem remove_cases (hsound : d.Sound) (key : RegionKey) :
    ∃ before cut after, d.forest.regions = before ++ cut ++ after ∧
      (d.remove key).1 = cut.map Region.key ∧
      (d.remove key).2.forest.regions = before ++ after ∧
      (d.remove key).2.pool = d.pool.giveBack (cut.map Region.key) ∧
      ∀ other ∈ (d.remove key).2.forest.keys,
        (d.remove key).2.forest.path? other = d.forest.path? other := by
  cases hfind : d.forest.find? key with
  | none =>
      have hremove : d.remove key = ([], d) := by simp [remove, hfind]
      rw [hremove]
      exact ⟨d.forest.regions, [], [], by simp, rfl, by simp, rfl, fun _ _ => rfl⟩
  | some found =>
      rcases found with ⟨root, below⟩
      have hremove : d.remove key =
          (root.key :: below.keys,
            ⟨d.forest.prune key, d.pool.giveBack (root.key :: below.keys)⟩) := by
        simp [remove, hfind]
      obtain ⟨before, after, hold, hnew⟩ :=
        Forest.regions_prune hsound.nodup_keys hfind
      rw [hremove]
      exact ⟨before, root :: below.regions, after, hold, rfl, hnew, rfl,
        fun other hother => Forest.path?_prune_of_mem hsound.nodup_keys hother⟩

/-- The live regions after removing are those that are not reported as removed. -/
theorem mem_regions_remove_iff (hsound : d.Sound) {r : Region} :
    r ∈ (d.remove key).2.forest.regions ↔
      r ∈ d.forest.regions ∧ r.key ∉ (d.remove key).1 := by
  rcases remove_cases hsound key with ⟨before, cut, after, hold, hremoved, hnew, -⟩
  have hnodup := hsound.nodup_keys
  rw [Forest.keys, hold] at hnodup
  have hperm : (before ++ cut ++ after).Perm (cut ++ (before ++ after)) := by
    rw [List.append_assoc]
    exact List.perm_append_comm_assoc before cut after
  rw [(hperm.map Region.key).nodup_iff, List.map_append, List.nodup_append'] at hnodup
  rw [hnew, hremoved, hold, hperm.mem_iff, @List.mem_append _ _ cut]
  constructor
  · intro hr
    refine ⟨Or.inr hr, ?_⟩
    intro hcut
    exact List.disjoint_left.mp hnodup.2.2 hcut (List.mem_map_of_mem hr)
  · rintro ⟨hcut | hr, hkey⟩
    · exact absurd (List.mem_map_of_mem hcut) hkey
    · exact hr

theorem mem_keys_remove_iff (hsound : d.Sound) :
    other ∈ (d.remove key).2.forest.keys ↔
      other ∈ d.forest.keys ∧ other ∉ (d.remove key).1 := by
  simp only [Forest.keys, List.mem_map, mem_regions_remove_iff hsound]
  constructor
  · rintro ⟨r, ⟨hr, hkey⟩, rfl⟩
    exact ⟨⟨r, hr, rfl⟩, hkey⟩
  · rintro ⟨⟨r, hr, rfl⟩, hkey⟩
    exact ⟨r, ⟨hr, hkey⟩, rfl⟩

/-- Removing only moves latest keys from the live to the returned ones. -/
theorem slots_remove (hsound : d.Sound) (key : RegionKey) :
    (d.remove key).2.slots.Perm d.slots := by
  rcases remove_cases hsound key with ⟨before, cut, after, hold, -, hnew, hpool, -⟩
  simp only [slots, Forest.keys, hold, hnew, hpool, KeyPool.giveBack, List.map_append]
  generalize before.map Region.key = b
  generalize cut.map Region.key = c
  generalize after.map Region.key = a
  have hmove : (a ++ (c.reverse ++ d.pool.returned)).Perm
      (c ++ (a ++ d.pool.returned)) := by
    rw [← List.append_assoc, ← List.append_assoc]
    apply List.Perm.append_right
    exact (List.perm_append_comm).trans ((List.reverse_perm c).append_right a)
  simpa using hmove.append_left b

theorem opened_remove (hsound : d.Sound) (key : RegionKey) :
    (d.remove key).2.pool.opened = d.pool.opened := by
  rcases remove_cases hsound key with ⟨_, _, _, -, -, -, hpool, -⟩
  rw [hpool, KeyPool.giveBack]

theorem Sound.remove (hsound : d.Sound) (key : RegionKey) : (d.remove key).2.Sound :=
  hsound.of_perm ((slots_remove hsound key).map RegionKey.index)
    (opened_remove hsound key)

/-! ## Moving a region -/

/-- Moving a region replaces that region and no other. -/
theorem forest_setBounds (hsound : d.Sound) (key : RegionKey) (bounds : Rectangle) :
    (d.setBounds key bounds).2.forest = d.forest.map (Region.placed key bounds) :=
  Forest.place_eq_map bounds hsound.nodup_keys

@[simp] theorem slots_setBounds (d : Diagram) (key : RegionKey) (bounds : Rectangle) :
    (d.setBounds key bounds).2.slots = d.slots := by
  simp [slots, setBounds]

theorem Sound.setBounds (hsound : d.Sound) (key : RegionKey) (bounds : Rectangle) :
    (d.setBounds key bounds).2.Sound :=
  hsound.of_perm (by simp) rfl

/-! ## Runs keep one key for each slot -/

theorem Sound.perform (hsound : d.Sound) (operation : Operation) :
    (d.perform operation).Sound := by
  cases operation with
  | insert parent kind bounds =>
      cases hinsert : d.insert? parent kind bounds with
      | none => simpa [Diagram.perform, hinsert] using hsound
      | some result => simpa [Diagram.perform, hinsert] using hsound.insert? hinsert
  | remove key => exact hsound.remove key
  | setBounds key bounds => exact hsound.setBounds key bounds

theorem Sound.run (hsound : d.Sound) (operations : List Operation) :
    (d.run operations).Sound := by
  induction operations generalizing d with
  | nil => exact hsound
  | cons operation rest ih => exact ih (hsound.perform operation)

/-- After every run of changes the slots of live and returned keys are distinct. -/
theorem sound_run (operations : List Operation) :
    (({} : Diagram).run operations).Sound :=
  sound_empty.run operations

/-! ## Keys that have been handed out -/

/-- A key has been handed out: its slot has reached its version. -/
def Issued (d : Diagram) (key : RegionKey) : Prop :=
  ∃ latest ∈ d.slots, latest.index = key.index ∧
    key.version.toNat ≤ latest.version.toNat

/-- At most the given number of slots has been opened, and none has been handed out
more often than that. -/
structure HandedOut (n : Nat) (d : Diagram) : Prop where
  opened_le : d.pool.opened ≤ n
  version_lt : ∀ key ∈ d.slots, key.version.toNat < 2 * n

theorem issued_of_mem_keys (h : key ∈ d.forest.keys) : d.Issued key :=
  ⟨key, mem_slots_of_mem_keys h, rfl, Nat.le_refl _⟩

theorem HandedOut.empty : HandedOut 0 {} where
  opened_le := Nat.le_refl 0
  version_lt _ hkey := absurd hkey List.not_mem_nil

/-- A version that is not at the end of the circle is renewed by adding two. -/
theorem toNat_version_renewed {n : Nat} (hn : n < 0x80000000)
    (h : key.version.toNat < 2 * n) :
    key.renewed.version.toNat = key.version.toNat + 2 := by
  have htwo : (2 : UInt32).toNat = 2 := rfl
  rw [RegionKey.version_renewed, UInt32.toNat_add, htwo]
  omega

theorem HandedOut.insert? {n : Nat} (hsound : d.Sound) (h : HandedOut n d)
    (hn : n < 0x80000000) {parent : Option RegionKey} {kind : RegionKind}
    {bounds : Rectangle} (hinsert : d.insert? parent kind bounds = some (key, next)) :
    HandedOut (n + 1) next := by
  rcases slots_insert? hsound hinsert with ⟨others, hnew, hcase⟩
  have hmono : ∀ k ∈ d.slots, k.version.toNat < 2 * (n + 1) := by
    intro k hk
    have hk := h.version_lt k hk
    omega
  have hopened_le := h.opened_le
  rcases hcase with ⟨old, hold, rfl, hopened⟩ | ⟨rfl, rfl, hopened⟩
  · refine ⟨by omega, ?_⟩
    intro k hk
    rcases List.mem_cons.mp (hnew.mem_iff.mp hk) with rfl | hk
    · have hlt := h.version_lt old (hold.mem_iff.mpr List.mem_cons_self)
      rw [toNat_version_renewed hn hlt]
      omega
    · exact hmono k (hold.mem_iff.mpr (List.mem_cons_of_mem _ hk))
  · refine ⟨by omega, ?_⟩
    intro k hk
    rcases List.mem_cons.mp (hnew.mem_iff.mp hk) with rfl | hk
    · have hone : (RegionKey.fresh (d.pool.opened + 1)).version.toNat = 1 := rfl
      omega
    · exact hmono k hk

theorem HandedOut.remove {n : Nat} (hsound : d.Sound) (h : HandedOut n d)
    (key : RegionKey) : HandedOut n (d.remove key).2 where
  opened_le := by
    rw [opened_remove hsound]
    exact h.opened_le
  version_lt k hk := h.version_lt k ((slots_remove hsound key).mem_iff.mp hk)

theorem HandedOut.setBounds {n : Nat} (h : HandedOut n d) (key : RegionKey)
    (bounds : Rectangle) : HandedOut n (d.setBounds key bounds).2 where
  opened_le := h.opened_le
  version_lt k hk := h.version_lt k (by simpa using hk)

/-- The key of an added region names a region. -/
theorem isNull_of_insert? {n : Nat} (hsound : d.Sound) (h : HandedOut n d)
    (hn : n < 0x80000000) {parent : Option RegionKey} {kind : RegionKind}
    {bounds : Rectangle} (hinsert : d.insert? parent kind bounds = some (key, next)) :
    key.isNull = false := by
  have hlive : key ∈ next.forest.keys :=
    (mem_keys_insert?_iff hsound hinsert).mpr (Or.inl rfl)
  have hindex := (hsound.insert? hinsert).opened key (mem_slots_of_mem_keys hlive)
  have hopened := (h.insert? hsound hn hinsert).opened_le
  have hne : key.index ≠ RegionKey.noIndex := by
    unfold RegionKey.noIndex
    omega
  simpa [RegionKey.isNull] using hne

/-- The key that comes out next has not been handed out before. -/
theorem not_issued_next {n : Nat} (hsound : d.Sound) (h : HandedOut n d)
    (hn : n < 0x80000000) : ¬ d.Issued d.pool.next := by
  rintro ⟨latest, hlatest, hindex, hversion⟩
  cases hreturned : d.pool.returned with
  | nil =>
      have hopened := hsound.opened latest hlatest
      have hnext : d.pool.next.index = d.pool.opened + 1 := by
        simp [KeyPool.next, hreturned, RegionKey.fresh]
      omega
  | cons old rest =>
      have hnext : d.pool.next = old.renewed := by simp [KeyPool.next, hreturned]
      have hold : old ∈ d.slots := by simp [slots, hreturned]
      obtain rfl : latest = old :=
        hsound.eq_of_index_eq hlatest hold (by rw [hindex, hnext, RegionKey.index_renewed])
      rw [hnext, toNat_version_renewed hn (h.version_lt latest hold)] at hversion
      omega

/-- A key that has been handed out stays so as a region is added, if no version is at the
end of the circle. -/
theorem Issued.insert?_of_version_lt {n : Nat} (hsound : d.Sound) (hn : n < 0x80000000)
    (hversion : ∀ key ∈ d.slots, key.version.toNat < 2 * n) {parent : Option RegionKey}
    {kind : RegionKind} {bounds : Rectangle}
    (hinsert : d.insert? parent kind bounds = some (key, next)) (hissued : d.Issued other) :
    next.Issued other := by
  rcases hissued with ⟨latest, hlatest, hindex, hreached⟩
  obtain ⟨others, hnew, ⟨old, hold, rfl, -⟩ | ⟨rfl, rfl, -⟩⟩ :=
    slots_insert? hsound hinsert
  · rcases List.mem_cons.mp (hold.mem_iff.mp hlatest) with rfl | hmem
    · refine ⟨latest.renewed, hnew.mem_iff.mpr List.mem_cons_self, hindex, ?_⟩
      rw [toNat_version_renewed hn (hversion latest hlatest)]
      omega
    · exact ⟨latest, hnew.mem_iff.mpr (List.mem_cons_of_mem _ hmem), hindex, hreached⟩
  · exact ⟨latest, hnew.mem_iff.mpr (List.mem_cons_of_mem _ hlatest), hindex, hreached⟩

theorem Issued.insert? {n : Nat} (hsound : d.Sound) (h : HandedOut n d)
    (hn : n < 0x80000000) {parent : Option RegionKey} {kind : RegionKind}
    {bounds : Rectangle} (hinsert : d.insert? parent kind bounds = some (key, next))
    (hissued : d.Issued other) : next.Issued other :=
  hissued.insert?_of_version_lt hsound hn h.version_lt hinsert

theorem Issued.remove (hsound : d.Sound) (hissued : d.Issued other) (key : RegionKey) :
    (d.remove key).2.Issued other := by
  rcases hissued with ⟨latest, hlatest, hlater⟩
  exact ⟨latest, (slots_remove hsound key).mem_iff.mpr hlatest, hlater⟩

theorem Issued.setBounds (hissued : d.Issued other) (key : RegionKey)
    (bounds : Rectangle) : (d.setBounds key bounds).2.Issued other := by
  simpa [Issued] using hissued

end Diagram

end NestedHover
