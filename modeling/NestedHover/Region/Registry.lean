import NestedHover.Region.Key

/-!
# Registries

A registry keeps one value for each registered key, and at most one key for each
slot.  Entering a key whose slot is held by another version replaces that version
if it is the older one and does nothing if it is the newer one.  The key that
names no region is never entered.  Entries stand in increasing order of slots.

Main results:

- Theorem {lit}`Registry.get?_insert_self`: a key entered into a slot that no newer
  version holds is found.
- Theorem {lit}`Registry.get?_insert_of_index_ne`: entering a key changes nothing
  in other slots.
- Theorems {lit}`Registry.get?_erase_self` and {lit}`Registry.get?_erase_of_ne`:
  erasing removes one key and no other.
- Theorems {lit}`Registry.get?_update_self` and {lit}`Registry.get?_update_of_ne`:
  updating changes the value of one registered key and no other.
-/

namespace NestedHover

/-- Values by region key, one key a slot, in increasing order of slots. -/
structure Registry (α : Type) where
  entries : List (RegionKey × α) := []
  ordered : entries.Pairwise (fun e f => e.1.index < f.1.index) := by simp
deriving DecidableEq

namespace Registry

variable {α : Type}

/-! ## Entering into the ordered entries -/

/-- The entries with a key entered at its place. -/
def enter (key : RegionKey) (value : α) :
    List (RegionKey × α) → List (RegionKey × α)
  | [] => [(key, value)]
  | e :: rest =>
      if key.index < e.1.index then (key, value) :: e :: rest
      else if key.index = e.1.index then
        (if key.isOlder e.1 then e else (key, value)) :: rest
      else e :: enter key value rest

/-- Entering uses no slot but those in use and that of the key. -/
theorem index_of_mem_enter {key : RegionKey} {value : α} {e : RegionKey × α}
    {es : List (RegionKey × α)} (h : e ∈ enter key value es) :
    e.1.index = key.index ∨ e ∈ es := by
  induction es with
  | nil =>
      simp only [enter, List.mem_singleton] at h
      subst h
      exact Or.inl rfl
  | cons f fs ih =>
      unfold enter at h
      split at h
      · rcases List.mem_cons.mp h with rfl | h
        · exact Or.inl rfl
        · exact Or.inr h
      · split at h
        · rename_i hindex
          rcases List.mem_cons.mp h with hf | h
          · split at hf
            · subst hf
              exact Or.inr (by simp)
            · subst hf
              exact Or.inl rfl
          · exact Or.inr (List.mem_cons_of_mem _ h)
        · rcases List.mem_cons.mp h with rfl | h
          · exact Or.inr (by simp)
          · rcases ih h with hkey | hmem
            · exact Or.inl hkey
            · exact Or.inr (List.mem_cons_of_mem _ hmem)

/-- Entering keeps the entries in increasing order of slots. -/
theorem pairwise_enter (key : RegionKey) (value : α) {es : List (RegionKey × α)}
    (h : es.Pairwise (fun e f => e.1.index < f.1.index)) :
    (enter key value es).Pairwise (fun e f => e.1.index < f.1.index) := by
  induction es with
  | nil => simp [enter]
  | cons e rest ih =>
      obtain ⟨hhead, htail⟩ := List.pairwise_cons.mp h
      unfold enter
      split
      · rename_i hlt
        refine List.pairwise_cons.mpr ⟨?_, h⟩
        intro f hf
        rcases List.mem_cons.mp hf with rfl | hf
        · exact hlt
        · exact Nat.lt_trans hlt (hhead f hf)
      · split
        · rename_i heq
          refine List.pairwise_cons.mpr ⟨?_, htail⟩
          intro f hf
          have := hhead f hf
          split <;> simp_all
        · rename_i hnlt hne
          refine List.pairwise_cons.mpr ⟨?_, ih htail⟩
          intro f hf
          rcases index_of_mem_enter hf with hindex | hmem
          · omega
          · exact hhead f hmem

/-! ## Operations -/

/-- The registry without entries. -/
def empty : Registry α := {}

/-- How many keys are registered. -/
def size (r : Registry α) : Nat := r.entries.length

/-- The value of a registered key. -/
def get? (r : Registry α) (key : RegionKey) : Option α :=
  (r.entries.find? fun e => e.1 = key).map Prod.snd

/-- Whether a key is registered. -/
def contains (r : Registry α) (key : RegionKey) : Bool := (r.get? key).isSome

/-- Enters a key with its value, unless it names no region or its slot is held
by a newer version. -/
def insert (r : Registry α) (key : RegionKey) (value : α) : Registry α :=
  if key.isNull then r
  else ⟨enter key value r.entries, pairwise_enter key value r.ordered⟩

/-- Removes a key; other versions in its slot stay. -/
def erase (r : Registry α) (key : RegionKey) : Registry α :=
  ⟨r.entries.filter fun e => e.1 ≠ key, r.ordered.filter _⟩

/-- Changes every value by a function of its key and itself. -/
def mapEntries (f : RegionKey → α → α) (r : Registry α) : Registry α :=
  ⟨r.entries.map fun e => (e.1, f e.1 e.2), by
    simpa [List.pairwise_map] using r.ordered⟩

/-- Gives a registered key a new value; nothing happens to any other key. -/
def update (r : Registry α) (key : RegionKey) (value : α) : Registry α :=
  r.mapEntries fun k old => if k = key then value else old

/-- Gives every registered key the same value. -/
def fill (r : Registry α) (value : α) : Registry α := r.mapEntries fun _ _ => value

/-! ## Laws -/

/-- Looking up in a list of entries by key. -/
private theorem map_find?_eq_some_iff {es : List (RegionKey × α)}
    (h : es.Pairwise (fun e f => e.1.index < f.1.index)) {key : RegionKey}
    {value : α} :
    (es.find? fun e => e.1 = key).map Prod.snd = some value ↔ (key, value) ∈ es := by
  induction es with
  | nil => simp
  | cons e rest ih =>
      obtain ⟨hhead, htail⟩ := List.pairwise_cons.mp h
      obtain ⟨k, v⟩ := e
      by_cases hk : k = key
      · subst hk
        simp only [decide_true, List.find?_cons_of_pos, Option.map_some,
          Option.some.injEq, List.mem_cons, Prod.mk.injEq, true_and]
        constructor
        · rintro rfl
          exact Or.inl rfl
        · rintro (rfl | hmem)
          · rfl
          · exact absurd (hhead _ hmem) (by simp)
      · have hk' : ¬ key = k := fun e => hk e.symm
        simp [hk, hk', ih htail]

/-- A value is found exactly when it is entered under the key. -/
theorem get?_eq_some_iff {r : Registry α} {key : RegionKey} {value : α} :
    r.get? key = some value ↔ (key, value) ∈ r.entries :=
  map_find?_eq_some_iff r.ordered

@[simp] theorem get?_empty (key : RegionKey) : (empty : Registry α).get? key = none :=
  rfl

@[simp] theorem get?_mapEntries (f : RegionKey → α → α) (r : Registry α)
    (key : RegionKey) : (r.mapEntries f).get? key = (r.get? key).map (f key) := by
  obtain ⟨es, h⟩ := r
  simp only [get?, mapEntries]
  clear h
  induction es with
  | nil => rfl
  | cons e rest ih =>
      by_cases hk : e.1 = key
      · simp [hk]
      · simpa [hk] using ih

theorem get?_update_self (r : Registry α) (key : RegionKey) (value : α) :
    (r.update key value).get? key = (r.get? key).map fun _ => value := by
  simp [update]

theorem get?_update_of_ne (r : Registry α) {key other : RegionKey} (value : α)
    (h : other ≠ key) : (r.update key value).get? other = r.get? other := by
  simp [update, h]

@[simp] theorem get?_fill (r : Registry α) (value : α) (key : RegionKey) :
    (r.fill value).get? key = (r.get? key).map fun _ => value := by
  simp [fill]

@[simp] theorem get?_erase_self (r : Registry α) (key : RegionKey) :
    (r.erase key).get? key = none := by
  simp [get?, erase]

theorem get?_erase_of_ne (r : Registry α) {key other : RegionKey} (h : other ≠ key) :
    (r.erase key).get? other = r.get? other := by
  obtain ⟨es, hes⟩ := r
  simp only [get?, erase]
  clear hes
  induction es with
  | nil => rfl
  | cons e rest ih =>
      by_cases hk : e.1 = key
      · have hother : ¬ key = other := fun e => h e.symm
        simpa [hk, hother] using ih
      · by_cases ho : e.1 = other
        · simp [ho, h]
        · simpa [hk, ho] using ih

/-- Where the key is entered, unless the slot is held by a newer version. -/
private theorem mem_enter_self {key : RegionKey} {value : α}
    {es : List (RegionKey × α)}
    (h : ∀ e ∈ es, e.1.index = key.index → key.isOlder e.1 = false) :
    (key, value) ∈ enter key value es := by
  induction es with
  | nil => simp [enter]
  | cons e rest ih =>
      unfold enter
      split
      · simp
      · split
        · rename_i hindex
          simp [h e (by simp) hindex.symm]
        · exact List.mem_cons_of_mem _
            (ih fun f hf => h f (List.mem_cons_of_mem _ hf))

/-- Entries of other slots are neither added nor lost. -/
private theorem mem_enter_of_index_ne {key : RegionKey} {value : α}
    {e : RegionKey × α} {es : List (RegionKey × α)} (h : e.1.index ≠ key.index) :
    e ∈ enter key value es ↔ e ∈ es := by
  constructor
  · intro he
    rcases index_of_mem_enter he with hindex | hmem
    · exact absurd hindex h
    · exact hmem
  · induction es with
    | nil => simp
    | cons f rest ih =>
        intro he
        unfold enter
        split
        · exact List.mem_cons_of_mem _ he
        · split
          · rename_i hindex
            rcases List.mem_cons.mp he with rfl | he
            · exact absurd hindex.symm h
            · exact List.mem_cons_of_mem _ he
          · rcases List.mem_cons.mp he with rfl | he
            · simp
            · exact List.mem_cons_of_mem _ (ih he)

/-- A key entered into a slot that nobody holds in a newer version is found. -/
theorem get?_insert_self {r : Registry α} {key : RegionKey} (value : α)
    (hnull : key.isNull = false)
    (h : ∀ e ∈ r.entries, e.1.index = key.index → key.isOlder e.1 = false) :
    (r.insert key value).get? key = some value := by
  rw [get?_eq_some_iff]
  simpa [insert, hnull] using mem_enter_self h

/-- Entering a key changes nothing in other slots. -/
theorem get?_insert_of_index_ne {r : Registry α} {key other : RegionKey} (value : α)
    (h : other.index ≠ key.index) :
    (r.insert key value).get? other = r.get? other := by
  unfold insert
  split
  · rfl
  · apply Option.ext
    intro v
    rw [get?_eq_some_iff, get?_eq_some_iff]
    exact mem_enter_of_index_ne (e := (other, v)) h

end Registry

end NestedHover
