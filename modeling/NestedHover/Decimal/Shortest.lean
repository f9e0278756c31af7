/-!
# Shortest decimal form

A binary number stands for every number that rounds to it.  Its shortest
decimal form is the point of the coarsest decimal grid that still falls among
them; of two such points the nearer one, and of two equally near ones the
larger.  Every number here is a natural number of the unit {lit}`10 ^ -151`, of
which each single-precision number and each midpoint between two of them is a
whole multiple, so no step rounds.

Main results:

- Theorem {lit}`Neighbourhood.covers_nearestOn`: a point that a grid offers
  rounds to the number in the middle.
- Theorem {lit}`Neighbourhood.covers_shortest`: the shortest form reads back as
  the number that it was made from.
- Theorem {lit}`Neighbourhood.not_covers_of_nearestOn_eq_none`: a grid that
  offers no point holds none, so no coarser form reads back.
-/

namespace NestedHover

namespace Decimal

/-- The count of decimal places of the unit that numbers are measured in. -/
def finestPlaces : Nat := 151

/-- A number with the bounds of what rounds to it, in units of the finest grid. -/
structure Neighbourhood where
  lower : Nat
  middle : Nat
  upper : Nat
  /-- Whether the two bounds themselves round to the middle. -/
  closed : Bool
deriving DecidableEq, Repr

namespace Neighbourhood

/-- Whether a number rounds to the middle. -/
def covers (n : Neighbourhood) (x : Nat) : Bool :=
  if n.closed then n.lower ≤ x && x ≤ n.upper else n.lower < x && x < n.upper

/-- The multiple of the step that rounds to the middle and is nearest to it, as
a count of steps; of two equally near ones the larger. -/
def nearestOn (n : Neighbourhood) (step : Nat) : Option Nat :=
  let below := n.middle / step
  match n.covers (below * step), n.covers ((below + 1) * step) with
  | true, true =>
      if n.middle - below * step < (below + 1) * step - n.middle then
        some below
      else
        some (below + 1)
  | true, false => some below
  | false, true => some (below + 1)
  | false, false => none

/-- The coarsest form from the given level downward: a count of steps with the
power of ten that one step is, in units of the finest grid. -/
def shortest (n : Neighbourhood) : Nat → Nat × Nat
  | 0 => (n.middle, 0)
  | level + 1 =>
      match n.nearestOn (Nat.pow 10 (level + 1)) with
      | some steps => (steps, level + 1)
      | none => n.shortest level

/-! ## The chosen point -/

/-- A point that a grid offers rounds to the middle. -/
theorem covers_nearestOn {n : Neighbourhood} {step steps : Nat}
    (h : n.nearestOn step = some steps) : n.covers (steps * step) = true := by
  unfold nearestOn at h
  dsimp only at h
  split at h
  · split at h <;> cases h <;> assumption
  · cases h
    assumption
  · cases h
    assumption
  · cases h

/-- The shortest form rounds to the number that it was made from. -/
theorem covers_shortest {n : Neighbourhood} (h : n.covers n.middle = true)
    (level : Nat) :
    n.covers ((n.shortest level).1 * Nat.pow 10 (n.shortest level).2) = true := by
  induction level with
  | zero => simpa [shortest] using h
  | succ level ih =>
      unfold shortest
      split
      · rename_i steps hsteps
        exact covers_nearestOn hsteps
      · exact ih

/-- A number between two covered numbers is covered. -/
theorem covers_of_between {n : Neighbourhood} {x y z : Nat}
    (hx : n.covers x = true) (hz : n.covers z = true) (hxy : x ≤ y)
    (hyz : y ≤ z) : n.covers y = true := by
  unfold covers at *
  split at hx <;> simp_all <;> omega

/-- A grid that offers no point holds none that rounds to the middle. -/
theorem not_covers_of_nearestOn_eq_none {n : Neighbourhood} {step : Nat}
    (hmiddle : n.covers n.middle = true) (hstep : 0 < step)
    (h : n.nearestOn step = none) (steps : Nat) :
    n.covers (steps * step) = false := by
  have hneither : n.covers (n.middle / step * step) = false ∧
      n.covers ((n.middle / step + 1) * step) = false := by
    unfold nearestOn at h
    dsimp only at h
    split at h
    · split at h <;> cases h
    · cases h
    · cases h
    · exact ⟨by assumption, by assumption⟩
  have hbelow : n.middle / step * step ≤ n.middle := Nat.div_mul_le_self _ _
  have habove : n.middle ≤ (n.middle / step + 1) * step := by
    have := Nat.lt_div_mul_add hstep (a := n.middle)
    rw [Nat.succ_mul]
    omega
  cases hcovers : n.covers (steps * step) with
  | false => rfl
  | true =>
      by_cases hle : steps ≤ n.middle / step
      · have hsteps : steps * step ≤ n.middle / step * step :=
          Nat.mul_le_mul_right _ hle
        have := covers_of_between hcovers hmiddle hsteps hbelow
        simp [hneither.1] at this
      · have hsteps : (n.middle / step + 1) * step ≤ steps * step :=
          Nat.mul_le_mul_right _ (by omega)
        have := covers_of_between hmiddle hcovers habove hsteps
        simp [hneither.2] at this

end Neighbourhood

/-! ## Single precision -/

/-- The neighbourhood of a positive finite single-precision number, from its
bit pattern without the sign.  A number at the bottom of its binade is only half
as far from the number below it. -/
def Neighbourhood.ofBits (bits : Nat) : Neighbourhood :=
  let exponentField := bits / 0x800000
  let fraction := bits % 0x800000
  let significand := if exponentField = 0 then fraction else fraction + 0x800000
  let quarter := Nat.pow 2 (exponentField - 1) * Nat.pow 5 finestPlaces
  let downward := if fraction = 0 ∧ 1 < exponentField then 1 else 2
  { lower := (4 * significand - downward) * quarter
    middle := 4 * significand * quarter
    upper := (4 * significand + 2) * quarter
    closed := significand % 2 = 0 }

/-- The level at which no positive single-precision number reaches one step. -/
def coarsestLevel : Nat := finestPlaces + 39

end Decimal

end NestedHover
