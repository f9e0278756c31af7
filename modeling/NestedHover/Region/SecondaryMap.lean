import NestedHover.Region.Registry

/-!
# Maps beside a slot map

A map beside a slot map keeps values of its own under the keys of that one, with at
most one key for each slot.  A key takes the place of an older one of its slot, and
is refused while the slot is held by a newer one.  The operations are one interface
and their laws another; a registry is the instance that the rest of this library
computes with.  The laws leave nothing open: whatever satisfies them finds the same
values as a registry does, after any run of calls.

Main results:

- Class {lit}`LawfulSecondaryMap`: the laws of a map beside a slot map.
- Instance {lit}`Registry.instLawfulSecondaryMap`: a registry satisfies them.
- Theorem {lit}`SecondaryMap.get?_run_eq`: two maps that satisfy them find the same
  values after the same calls.
-/

namespace NestedHover

/-! ## The interface -/

/-- Values by key, one key a slot. -/
class SecondaryMap (R : Type → Type) where
  /-- The map without values. -/
  empty {α : Type} : R α
  /-- The value under a key. -/
  get? {α : Type} (r : R α) (key : RegionKey) : Option α
  /-- Enters a value under a key. -/
  insert {α : Type} (r : R α) (key : RegionKey) (value : α) : R α
  /-- Removes a key. -/
  erase {α : Type} (r : R α) (key : RegionKey) : R α
  /-- Changes every value by a function of its key and itself. -/
  mapEntries {α : Type} (f : RegionKey → α → α) (r : R α) : R α

/-- Whether a key can be entered: it names a region, and its slot is not held by a
newer version. -/
def SecondaryMap.Admits {R : Type → Type} [SecondaryMap R] {α : Type} (r : R α)
    (key : RegionKey) : Prop :=
  key.isNull = false ∧ ∀ holder, (get? r holder).isSome = true →
    holder.index = key.index → key.isOlder holder = false

/-- What a map beside a slot map promises. -/
class LawfulSecondaryMap (R : Type → Type) [SecondaryMap R] : Prop where
  get?_empty {α : Type} (key : RegionKey) :
    SecondaryMap.get? (SecondaryMap.empty : R α) key = none
  /-- A key that can be entered is the only one of its slot then. -/
  get?_insert_of_admits {α : Type} {r : R α} {key : RegionKey}
    (h : SecondaryMap.Admits r key) (value : α) (other : RegionKey) :
    SecondaryMap.get? (SecondaryMap.insert r key value) other =
      if other = key then some value
      else if other.index = key.index then none else SecondaryMap.get? r other
  /-- A key that cannot be entered changes nothing. -/
  get?_insert_of_not_admits {α : Type} {r : R α} {key : RegionKey}
    (h : ¬ SecondaryMap.Admits r key) (value : α) (other : RegionKey) :
    SecondaryMap.get? (SecondaryMap.insert r key value) other = SecondaryMap.get? r other
  get?_erase {α : Type} (r : R α) (key other : RegionKey) :
    SecondaryMap.get? (SecondaryMap.erase r key) other =
      if other = key then none else SecondaryMap.get? r other
  get?_mapEntries {α : Type} (f : RegionKey → α → α) (r : R α) (key : RegionKey) :
    SecondaryMap.get? (SecondaryMap.mapEntries f r) key = (SecondaryMap.get? r key).map (f key)

/-! ## What the laws determine -/

namespace SecondaryMap

/-- A call that changes a map. -/
inductive Call (α : Type) where
  | insert (key : RegionKey) (value : α)
  | erase (key : RegionKey)
  | mapEntries (f : RegionKey → α → α)

variable {R S : Type → Type} [SecondaryMap R] [SecondaryMap S] {α : Type}

/-- Carries out one call. -/
def perform (r : R α) : Call α → R α
  | .insert key value => insert r key value
  | .erase key => erase r key
  | .mapEntries f => mapEntries f r

/-- The map after a sequence of calls. -/
def run (r : R α) (calls : List (Call α)) : R α := calls.foldl perform r

variable [LawfulSecondaryMap R] [LawfulSecondaryMap S]

/-- A call keeps two maps in step. -/
theorem get?_perform_eq {r : R α} {s : S α} (h : ∀ key, get? r key = get? s key)
    (call : Call α) (key : RegionKey) : get? (perform r call) key = get? (perform s call) key := by
  cases call with
  | insert entered value =>
      have hadmits : Admits r entered ↔ Admits s entered := by simp only [Admits, h]
      by_cases henter : Admits r entered
      · rw [perform, perform, LawfulSecondaryMap.get?_insert_of_admits henter,
          LawfulSecondaryMap.get?_insert_of_admits (hadmits.mp henter), h]
      · rw [perform, perform, LawfulSecondaryMap.get?_insert_of_not_admits henter,
          LawfulSecondaryMap.get?_insert_of_not_admits (henter ∘ hadmits.mpr), h]
  | erase removed =>
      rw [perform, perform, LawfulSecondaryMap.get?_erase, LawfulSecondaryMap.get?_erase, h]
  | mapEntries f =>
      rw [perform, perform, LawfulSecondaryMap.get?_mapEntries,
        LawfulSecondaryMap.get?_mapEntries, h]

/-- Two maps that satisfy the laws find the same values after the same calls. -/
theorem get?_run_eq (calls : List (Call α)) (key : RegionKey) :
    get? (run (empty : R α) calls) key = get? (run (empty : S α) calls) key := by
  have hstep : ∀ {r : R α} {s : S α}, (∀ key, get? r key = get? s key) →
      get? (run r calls) key = get? (run s calls) key := by
    induction calls with
    | nil => exact fun h => h key
    | cons call rest ih => exact fun h => ih (get?_perform_eq h call)
  refine hstep fun key => ?_
  rw [LawfulSecondaryMap.get?_empty, LawfulSecondaryMap.get?_empty]

end SecondaryMap

/-! ## Registries -/

namespace Registry

variable {α : Type} {r : Registry α} {key : RegionKey} {value : α}

instance instSecondaryMap : SecondaryMap Registry where
  empty := empty
  get? := get?
  insert := insert
  erase := erase
  mapEntries := mapEntries

/-- Two entries of one slot are the same. -/
theorem eq_of_mem_of_index_eq {es : List (RegionKey × α)}
    (h : es.Pairwise fun e f => e.1.index < f.1.index) {e f : RegionKey × α} (he : e ∈ es)
    (hf : f ∈ es) (hindex : e.1.index = f.1.index) : e = f := by
  induction es with
  | nil => cases he
  | cons first rest ih =>
      obtain ⟨hhead, htail⟩ := List.pairwise_cons.mp h
      rcases List.mem_cons.mp he with heq | herest <;>
        rcases List.mem_cons.mp hf with hfeq | hfrest
      · rw [heq, hfeq]
      · exact absurd hindex (Nat.ne_of_lt (heq ▸ hhead f hfrest))
      · exact absurd hindex (Nat.ne_of_gt (hfeq ▸ hhead e herest))
      · exact ih htail herest hfrest

/-- Entering a key changes nothing while its slot is held by a newer version. -/
theorem enter_of_isOlder {es : List (RegionKey × α)} {holder : RegionKey × α}
    (h : es.Pairwise fun e f => e.1.index < f.1.index) (hholder : holder ∈ es)
    (hindex : holder.1.index = key.index) (hnewer : key.isOlder holder.1 = true) :
    enter key value es = es := by
  induction es with
  | nil => cases hholder
  | cons first rest ih =>
      obtain ⟨hhead, htail⟩ := List.pairwise_cons.mp h
      unfold enter
      rcases List.mem_cons.mp hholder with rfl | hholder
      · simp [hindex, hnewer]
      · have hlater := hhead holder hholder
        rw [if_neg (by omega), if_neg (by omega), ih htail hholder]

/-- A key can be entered exactly if no entry of its slot has a newer version. -/
theorem admits_iff :
    SecondaryMap.Admits r key ↔
      key.isNull = false ∧ ∀ e ∈ r.entries, e.1.index = key.index → key.isOlder e.1 = false := by
  refine and_congr_right fun _ => ⟨fun h e he => h e.1 ?_, fun h holder hholder => ?_⟩
  · exact Option.isSome_iff_exists.mpr ⟨e.2, get?_eq_some_iff.mpr he⟩
  · rcases Option.isSome_iff_exists.mp hholder with ⟨old, hold⟩
    exact h (holder, old) (get?_eq_some_iff.mp hold)

theorem get?_insert_of_admits (h : SecondaryMap.Admits r key) (value : α) (other : RegionKey) :
    (r.insert key value).get? other =
      if other = key then some value
      else if other.index = key.index then none else r.get? other := by
  obtain ⟨hnull, hnewest⟩ := admits_iff.mp h
  have hself : (r.insert key value).get? key = some value := get?_insert_self value hnull hnewest
  split
  · rename_i heq
    rw [heq, hself]
  · split
    · rename_i hne hindex
      rw [Option.eq_none_iff_forall_ne_some]
      intro old hold
      have hsame := eq_of_mem_of_index_eq (r.insert key value).ordered
        (get?_eq_some_iff.mp hold) (get?_eq_some_iff.mp hself) hindex
      exact hne (congrArg Prod.fst hsame)
    · rename_i hindex
      exact get?_insert_of_index_ne value hindex

theorem insert_of_not_admits (h : ¬ SecondaryMap.Admits r key) (value : α) :
    r.insert key value = r := by
  cases hnull : key.isNull with
  | true => rw [insert, if_pos hnull]
  | false =>
      rw [admits_iff] at h
      obtain ⟨holder, hholder, hindex, hnewer⟩ : ∃ e ∈ r.entries,
          e.1.index = key.index ∧ key.isOlder e.1 = true := by simpa [hnull] using h
      have hentries : enter key value r.entries = r.entries :=
        enter_of_isOlder r.ordered hholder hindex hnewer
      simp [insert, hnull, hentries]

/-- A registry is a lawful map beside a slot map. -/
instance instLawfulSecondaryMap : LawfulSecondaryMap Registry where
  get?_empty := get?_empty
  get?_insert_of_admits := get?_insert_of_admits
  get?_insert_of_not_admits h value other :=
    congrArg (Registry.get? · other) (insert_of_not_admits h value)
  get?_erase r key other := by
    split
    · rename_i heq
      rw [heq]
      exact get?_erase_self r key
    · rename_i hne
      exact get?_erase_of_ne r hne
  get?_mapEntries := get?_mapEntries

end Registry

end NestedHover
