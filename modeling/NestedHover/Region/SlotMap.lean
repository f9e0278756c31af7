import NestedHover.Region.Key

/-!
# Slot maps

A slot map keeps values in slots and answers a key for each value that is put in.
The key finds the value until it is taken out, and nothing afterwards, also when
the slot has got another occupant.  The operations are one interface and their
laws another, so that what is built on slot maps says what it relies on.

A table of slots is the slot map that the keys of a {lit}`KeyPool` belong to: it
holds its values under the keys that are out, and the pool supplies the next one.

Main results:

- Class {lit}`LawfulSlotMap`: the laws of a slot map.
- Theorems {lit}`KeyPool.Supplies.advance` and {lit}`KeyPool.Supplies.giveBack`: a
  pool goes on to supply keys of distinct slots.
- Instance {lit}`SlotTable.instLawfulSlotMap`: a table of slots is a lawful slot
  map.
-/

namespace NestedHover

/-! ## The interface -/

/-- Values by key, with the keys made by the map. -/
class SlotMap (M : Type → Type) where
  /-- The map without values. -/
  empty {α : Type} : M α
  /-- How many values there are. -/
  size {α : Type} (m : M α) : Nat
  /-- The value under a key. -/
  get? {α : Type} (m : M α) (key : RegionKey) : Option α
  /-- Puts a value in; answers its key and the new map. -/
  insert {α : Type} (m : M α) (value : α) : RegionKey × M α
  /-- Changes the value under a key in place, if there is one. -/
  modify? {α : Type} (m : M α) (key : RegionKey) (f : α → α) : Option (M α)
  /-- Takes the value under a key out; answers it and the new map. -/
  remove {α : Type} (m : M α) (key : RegionKey) : Option α × M α

/-- What a slot map promises as long as it does not run out of slots. -/
class LawfulSlotMap (M : Type → Type) [SlotMap M] : Prop where
  get?_empty {α : Type} (key : RegionKey) : SlotMap.get? (SlotMap.empty : M α) key = none
  size_empty {α : Type} : SlotMap.size (SlotMap.empty : M α) = 0
  /-- The key of a new value is not the key of any other value. -/
  get?_new {α : Type} (m : M α) (value : α) :
    SlotMap.get? m (SlotMap.insert m value).1 = none
  get?_insert_self {α : Type} (m : M α) (value : α) :
    SlotMap.get? (SlotMap.insert m value).2 (SlotMap.insert m value).1 = some value
  get?_insert_of_ne {α : Type} (m : M α) (value : α) {key : RegionKey}
    (h : key ≠ (SlotMap.insert m value).1) :
    SlotMap.get? (SlotMap.insert m value).2 key = SlotMap.get? m key
  size_insert {α : Type} (m : M α) (value : α) :
    SlotMap.size (SlotMap.insert m value).2 = SlotMap.size m + 1
  modify?_eq_none_iff {α : Type} (m : M α) (key : RegionKey) (f : α → α) :
    SlotMap.modify? m key f = none ↔ SlotMap.get? m key = none
  get?_modify?_self {α : Type} {m next : M α} {key : RegionKey} {f : α → α}
    (h : SlotMap.modify? m key f = some next) :
    SlotMap.get? next key = (SlotMap.get? m key).map f
  get?_modify?_of_ne {α : Type} {m next : M α} {key other : RegionKey} {f : α → α}
    (h : SlotMap.modify? m key f = some next) (hne : other ≠ key) :
    SlotMap.get? next other = SlotMap.get? m other
  size_modify? {α : Type} {m next : M α} {key : RegionKey} {f : α → α}
    (h : SlotMap.modify? m key f = some next) : SlotMap.size next = SlotMap.size m
  remove_fst {α : Type} (m : M α) (key : RegionKey) :
    (SlotMap.remove m key).1 = SlotMap.get? m key
  get?_remove_self {α : Type} (m : M α) (key : RegionKey) :
    SlotMap.get? (SlotMap.remove m key).2 key = none
  get?_remove_of_ne {α : Type} (m : M α) {key other : RegionKey} (hne : other ≠ key) :
    SlotMap.get? (SlotMap.remove m key).2 other = SlotMap.get? m other
  size_remove {α : Type} {m : M α} {key : RegionKey} {value : α}
    (h : SlotMap.get? m key = some value) :
    SlotMap.size (SlotMap.remove m key).2 + 1 = SlotMap.size m
  /-- A key without a value takes nothing out. -/
  remove_of_get?_eq_none {α : Type} {m : M α} {key : RegionKey}
    (h : SlotMap.get? m key = none) : (SlotMap.remove m key).2 = m
  /-- A slot holds one value at most. -/
  eq_of_index_eq {α : Type} {m : M α} {key other : RegionKey} {value old : α}
    (hkey : SlotMap.get? m key = some value) (hother : SlotMap.get? m other = some old)
    (hindex : key.index = other.index) : key = other

/-! ## What a pool supplies -/

/-- The keys that are out and those that were given back name each opened slot once
at most, and no other slot. -/
structure KeyPool.Supplies (pool : KeyPool) (held : List RegionKey) : Prop where
  nodup : ((held ++ pool.returned).map RegionKey.index).Nodup
  opened : ∀ key ∈ held ++ pool.returned, key.index ≤ pool.opened

namespace KeyPool

variable {pool : KeyPool} {held others keys kept : List RegionKey} {key other : RegionKey}

theorem supplies_empty : Supplies {} [] where
  nodup := List.nodup_nil
  opened _ hkey := absurd hkey List.not_mem_nil

/-- The order of the keys that are out does not matter. -/
theorem Supplies.of_perm (h : pool.Supplies held) (hperm : others.Perm held) :
    pool.Supplies others where
  nodup := ((hperm.append_right _).map _).nodup_iff.mpr h.nodup
  opened key hkey := h.opened key ((hperm.append_right _).mem_iff.mp hkey)

/-- Once the next key has been taken out it is out, and the pool goes on. -/
theorem Supplies.advance (h : pool.Supplies held) :
    pool.advance.Supplies (pool.next :: held) := by
  obtain ⟨hnodup, hopened⟩ := h
  rcases pool with ⟨opened, returned⟩
  cases returned with
  | nil =>
      have hfresh : (RegionKey.fresh (opened + 1)).index = opened + 1 := rfl
      constructor
      · rw [advance, next, List.cons_append, List.map_cons, List.nodup_cons]
        refine ⟨?_, hnodup⟩
        intro hmem
        rcases List.mem_map.mp hmem with ⟨k, hk, hindex⟩
        have hle := hopened k hk
        simp only [hfresh] at hindex hle
        omega
      · intro k hk
        rcases List.mem_cons.mp hk with rfl | hk
        · exact Nat.le_of_eq hfresh
        · exact Nat.le_succ_of_le (hopened k hk)
  | cons old rest =>
      -- the renewed key has the slot of the one that was given back
      have hperm : ((held ++ old :: rest).map RegionKey.index).Perm
          ((old.renewed :: held ++ rest).map RegionKey.index) :=
        List.perm_middle.map RegionKey.index
      constructor
      · exact hperm.nodup_iff.mp hnodup
      · intro k hk
        have hindex := hperm.mem_iff.mpr (List.mem_map_of_mem hk)
        rcases List.mem_map.mp hindex with ⟨known, hknown, hsame⟩
        rw [← hsame]
        exact hopened known hknown

/-- Keys that are handed back are no longer out, and the pool goes on. -/
theorem Supplies.giveBack (h : pool.Supplies held) (hperm : held.Perm (keys ++ kept)) :
    (pool.giveBack keys).Supplies kept := by
  have hmove : (held ++ pool.returned).Perm (kept ++ (keys.reverse ++ pool.returned)) := by
    refine (hperm.append_right _).trans ?_
    rw [List.append_assoc]
    refine (List.perm_append_comm_assoc keys kept _).trans ?_
    exact ((List.reverse_perm keys).symm.append_right _).append_left kept
  constructor
  · exact (hmove.map RegionKey.index).nodup_iff.mp h.nodup
  · intro key hkey
    exact h.opened key (hmove.mem_iff.mpr hkey)

/-- No key is out twice. -/
theorem Supplies.nodup_held (h : pool.Supplies held) : held.Nodup := by
  have hslots := h.nodup
  rw [List.map_append, List.nodup_append] at hslots
  exact (List.pairwise_map.mp hslots.1).imp fun hne e => hne (congrArg RegionKey.index e)

/-- A slot has one key at most that is out. -/
theorem Supplies.eq_of_index_eq (h : pool.Supplies held) (hkey : key ∈ held)
    (hother : other ∈ held) (hindex : key.index = other.index) : key = other := by
  rcases List.append_of_mem hkey with ⟨before, after, rfl⟩
  have hslots := (h.of_perm List.perm_middle.symm).nodup
  rw [List.cons_append, List.map_cons, List.nodup_cons] at hslots
  rcases List.mem_cons.mp (List.perm_middle.mem_iff.mp hother) with rfl | hother
  · rfl
  · exact absurd (hindex ▸ List.mem_map_of_mem (List.mem_append_left _ hother)) hslots.1

end KeyPool

/-! ## Tables of slots -/

/-- Values under the keys of a pool, the latest first. -/
structure SlotTable (α : Type) where
  entries : List (RegionKey × α)
  pool : KeyPool
  supplied : pool.Supplies (entries.map Prod.fst)

namespace SlotTable

variable {α : Type} {t next : SlotTable α} {key other : RegionKey} {value : α}

/-- The value under a key. -/
def get? (t : SlotTable α) (key : RegionKey) : Option α := t.entries.lookup key

/-- The table with a value put in under the next key of the pool. -/
def push (t : SlotTable α) (value : α) : SlotTable α where
  entries := (t.pool.next, value) :: t.entries
  pool := t.pool.advance
  supplied := t.supplied.advance

/-- The entries with the value under a key changed. -/
def change (key : RegionKey) (f : α → α) (entries : List (RegionKey × α)) :
    List (RegionKey × α) :=
  entries.map fun e => (e.1, if e.1 = key then f e.2 else e.2)

theorem map_fst_change (key : RegionKey) (f : α → α) (entries : List (RegionKey × α)) :
    (change key f entries).map Prod.fst = entries.map Prod.fst := by
  rw [change, List.map_map]
  rfl

/-- The table with the value under a key changed in place. -/
def changed (t : SlotTable α) (key : RegionKey) (f : α → α) : SlotTable α where
  entries := change key f t.entries
  pool := t.pool
  supplied := by
    rw [map_fst_change]
    exact t.supplied

private theorem lookup_cons_eq_ite (key k : RegionKey) (v : α) (es : List (RegionKey × α)) :
    ((k, v) :: es).lookup key = if key = k then some v else es.lookup key := by
  rw [List.lookup_cons]
  by_cases h : key = k
  · simp [h]
  · rw [if_neg h, beq_false_of_ne h]

private theorem lookup_eq_none {es : List (RegionKey × α)} (h : ∀ e ∈ es, ¬ e.1 = key) :
    es.lookup key = none := by
  rw [List.lookup_eq_none_iff]
  intro e he
  exact bne_iff_ne.mpr fun hkey => h e he hkey.symm

/-- A value that is found is in one place of the table. -/
theorem exists_entries_eq (h : t.get? key = some value) :
    ∃ before after, t.entries = before ++ (key, value) :: after ∧
      (∀ e ∈ before, ¬ e.1 = key) ∧ ∀ e ∈ after, ¬ e.1 = key := by
  rcases List.lookup_eq_some_iff.mp h with ⟨before, after, hentries, hbefore⟩
  have hnodup := t.supplied.nodup_held
  rw [hentries, List.map_append, List.map_cons, (List.perm_middle).nodup_iff,
    List.nodup_cons] at hnodup
  refine ⟨before, after, hentries, fun e he hkey => ?_, fun e he hkey => ?_⟩
  · simpa [hkey] using hbefore e he
  · exact hnodup.1 (List.mem_append_right _ (List.mem_map.mpr ⟨e, he, hkey⟩))

/-- The entries without the one under a key. -/
def drop (key : RegionKey) (entries : List (RegionKey × α)) : List (RegionKey × α) :=
  entries.eraseP fun e => e.1 = key

theorem drop_append {before after : List (RegionKey × α)} (h : ∀ e ∈ before, ¬ e.1 = key) :
    drop key (before ++ (key, value) :: after) = before ++ after := by
  rw [drop, List.eraseP_append_right _ (by simpa using h)]
  simp

/-- The table once a key with its value has been taken out and handed back. -/
def pop (t : SlotTable α) (key : RegionKey) (h : (t.get? key).isSome = true) : SlotTable α where
  entries := drop key t.entries
  pool := t.pool.giveBack [key]
  supplied := by
    rcases Option.isSome_iff_exists.mp h with ⟨value, hvalue⟩
    rcases exists_entries_eq hvalue with ⟨before, after, hentries, hbefore, -⟩
    rw [hentries, drop_append hbefore]
    refine t.supplied.giveBack ?_
    rw [hentries, List.map_append, List.map_cons, List.map_append]
    exact List.perm_middle

instance instSlotMap : SlotMap SlotTable where
  empty := ⟨[], {}, KeyPool.supplies_empty⟩
  size t := t.entries.length
  get? := get?
  insert t value := (t.pool.next, t.push value)
  modify? t key f := if (t.get? key).isSome then some (t.changed key f) else none
  remove t key := (t.get? key, if h : (t.get? key).isSome then t.pop key h else t)

/-! ## Laws -/

theorem get?_push (t : SlotTable α) (value : α) (key : RegionKey) :
    (t.push value).get? key = if key = t.pool.next then some value else t.get? key :=
  lookup_cons_eq_ite key t.pool.next value t.entries

/-- The next key of the pool is not in use. -/
theorem get?_next (t : SlotTable α) : t.get? t.pool.next = none := by
  have hnew := (List.nodup_cons.mp t.supplied.advance.nodup_held).1
  exact lookup_eq_none fun e he h => hnew (List.mem_map.mpr ⟨e, he, h⟩)

theorem get?_changed (t : SlotTable α) (key : RegionKey) (f : α → α) (other : RegionKey) :
    (t.changed key f).get? other = (t.get? other).map fun v => if other = key then f v else v := by
  simp only [get?, changed, change]
  induction t.entries with
  | nil => rfl
  | cons e rest ih =>
      rw [List.map_cons, lookup_cons_eq_ite, ih, lookup_cons_eq_ite]
      by_cases hk : other = e.1
      · rw [if_pos hk, if_pos hk, Option.map_some, hk]
      · rw [if_neg hk, if_neg hk]

theorem get?_pop (t : SlotTable α) (h : (t.get? key).isSome = true) (other : RegionKey) :
    (t.pop key h).get? other = if other = key then none else t.get? other := by
  rcases Option.isSome_iff_exists.mp h with ⟨value, hvalue⟩
  rcases exists_entries_eq hvalue with ⟨before, after, hentries, hbefore, hafter⟩
  have hpop : (t.pop key h).entries = before ++ after := by
    rw [← drop_append hbefore, ← hentries, pop]
  rw [get?, hpop, List.lookup_append]
  by_cases hk : other = key
  · rw [if_pos hk, hk, lookup_eq_none hbefore, lookup_eq_none hafter, Option.none_or]
  · rw [if_neg hk, get?, hentries, List.lookup_append, lookup_cons_eq_ite, if_neg hk]

theorem length_entries_pop (t : SlotTable α) (h : (t.get? key).isSome = true) :
    (t.pop key h).entries.length + 1 = t.entries.length := by
  rcases Option.isSome_iff_exists.mp h with ⟨value, hvalue⟩
  rcases exists_entries_eq hvalue with ⟨before, after, hentries, hbefore, -⟩
  simp only [pop, hentries, drop_append hbefore, List.length_append, List.length_cons]
  omega

theorem mem_keys_of_get?_eq_some (h : t.get? key = some value) :
    key ∈ t.entries.map Prod.fst := by
  rcases exists_entries_eq h with ⟨before, after, hentries, -⟩
  simp [hentries]

/-- A table of slots is a lawful slot map. -/
instance instLawfulSlotMap : LawfulSlotMap SlotTable where
  get?_empty _ := rfl
  size_empty := rfl
  get?_new t _ := get?_next t
  get?_insert_self t value := (get?_push t value _).trans (if_pos rfl)
  get?_insert_of_ne t value _ h := (get?_push t value _).trans (if_neg h)
  size_insert _ _ := rfl
  modify?_eq_none_iff t key f := by
    simp [SlotMap.modify?, SlotMap.get?]
  get?_modify?_self h := by
    obtain ⟨-, rfl⟩ : _ ∧ _ := by simpa [SlotMap.modify?] using h
    simp [SlotMap.get?, get?_changed]
  get?_modify?_of_ne h hne := by
    obtain ⟨-, rfl⟩ : _ ∧ _ := by simpa [SlotMap.modify?] using h
    simp [SlotMap.get?, get?_changed, hne]
  size_modify? h := by
    obtain ⟨-, rfl⟩ : _ ∧ _ := by simpa [SlotMap.modify?] using h
    simp [SlotMap.size, changed, change]
  remove_fst _ _ := rfl
  get?_remove_self t key := by
    by_cases h : (t.get? key).isSome = true
    · simp [SlotMap.remove, SlotMap.get?, h, get?_pop]
    · have hnone : t.get? key = none := by simpa using h
      simp [SlotMap.remove, SlotMap.get?, hnone]
  get?_remove_of_ne t key other hne := by
    by_cases h : (t.get? key).isSome = true
    · simp [SlotMap.remove, SlotMap.get?, h, get?_pop, hne]
    · simp [SlotMap.remove, SlotMap.get?, h]
  size_remove {_ t key value} h := by
    have hsome : (t.get? key).isSome = true := Option.isSome_iff_exists.mpr ⟨value, h⟩
    simpa [SlotMap.remove, SlotMap.size, hsome] using length_entries_pop t hsome
  remove_of_get?_eq_none {_ t key} h := by
    have hnone : t.get? key = none := h
    simp [SlotMap.remove, hnone]
  eq_of_index_eq {_ t _ _ _ _} hkey hother hindex :=
    t.supplied.eq_of_index_eq (mem_keys_of_get?_eq_some hkey) (mem_keys_of_get?_eq_some hother)
      hindex

/-! ## The pool of a table -/

/-- Changing a value hands out no key. -/
theorem pool_modify? {f : α → α} (h : SlotMap.modify? t key f = some next) :
    next.pool = t.pool := by
  obtain ⟨-, rfl⟩ : _ ∧ _ := by simpa [SlotMap.modify?] using h
  rfl

/-- The key of a value that is taken out is handed back. -/
theorem pool_remove (h : SlotMap.get? t key = some value) :
    (SlotMap.remove t key).2.pool = t.pool.giveBack [key] := by
  have hsome : (t.get? key).isSome = true := Option.isSome_iff_exists.mpr ⟨value, h⟩
  simp [SlotMap.remove, hsome, pop]

end SlotTable

end NestedHover
