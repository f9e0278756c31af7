/-!
# Region keys

A key names a region by the slot that holds it and by the version of the slot's
occupant, so that a key of a removed region never names a later occupant of the
same slot.  Versions wrap around at 32 bits; which of two versions is the older
one is decided by their distance along the circle.

A pool hands keys out.  Keys that were given back are used again before fresh
slots are opened, the latest first, and under the version after the next.

Main results:

- Theorem {lit}`RegionKey.isOlder_self`: no key is older than itself.
- Theorem {lit}`RegionKey.index_renewed`: a renewed key names the same slot.
- Theorem {lit}`KeyPool.next_giveBack_singleton`: a key given back comes out
  next, renewed.
-/

namespace NestedHover

/-- The name of a region: a slot and the version of its occupant. -/
structure RegionKey where
  index : Nat
  version : UInt32
deriving DecidableEq, Repr

namespace RegionKey

/-- The slot number that no region ever has. -/
def noIndex : Nat := 0xFFFFFFFF

/-- The key that names no region. -/
def null : RegionKey := ⟨noIndex, 1⟩

/-- Whether a key names no region, whatever its version. -/
def isNull (k : RegionKey) : Bool := k.index = noIndex

/-- The key of the first occupant of a slot. -/
def fresh (index : Nat) : RegionKey := ⟨index, 1⟩

/-- The key of the next occupant of the same slot. -/
def renewed (k : RegionKey) : RegionKey := { k with version := k.version + 2 }

/-- Whether the version of the first key is older than that of the second: it
is half the circle or more ahead of it. -/
def isOlder (k l : RegionKey) : Bool := 0x80000000 ≤ (k.version - l.version).toNat

@[simp] theorem isOlder_self (k : RegionKey) : k.isOlder k = false := by
  simp [isOlder]

@[simp] theorem index_renewed (k : RegionKey) : k.renewed.index = k.index := rfl

@[simp] theorem version_renewed (k : RegionKey) :
    k.renewed.version = k.version + 2 := rfl

end RegionKey

/-! ## The pool of keys -/

/-- The supply of keys: how many slots have been opened, and the keys that were
given back, latest first. -/
structure KeyPool where
  opened : Nat := 0
  returned : List RegionKey := []
deriving DecidableEq, Repr

namespace KeyPool

/-- The key that comes out next. -/
def next (pool : KeyPool) : RegionKey :=
  match pool.returned with
  | k :: _ => k.renewed
  | [] => .fresh (pool.opened + 1)

/-- The pool once the next key has been taken out. -/
def advance (pool : KeyPool) : KeyPool :=
  match pool.returned with
  | _ :: rest => { pool with returned := rest }
  | [] => { pool with opened := pool.opened + 1 }

/-- The pool once the given keys have been handed back, in order. -/
def giveBack (pool : KeyPool) (keys : List RegionKey) : KeyPool :=
  { pool with returned := keys.reverse ++ pool.returned }

theorem giveBack_giveBack (pool : KeyPool) (first second : List RegionKey) :
    (pool.giveBack first).giveBack second = pool.giveBack (first ++ second) := by
  simp [giveBack]

@[simp] theorem next_giveBack_singleton (pool : KeyPool) (k : RegionKey) :
    (pool.giveBack [k]).next = k.renewed := rfl

@[simp] theorem advance_giveBack_singleton (pool : KeyPool) (k : RegionKey) :
    (pool.giveBack [k]).advance = pool := rfl

end KeyPool

end NestedHover
