import NestedHover.Decimal.Shortest
import NestedHover.Geometry.Coordinate

/-!
# Positional text

Numbers are written by position, however large or small, and never with an
exponent: whole numbers without a point, all others with at least one digit on
either side of it.

Main results:

- Theorem {lit}`length_padded`: padding never loses digits and reaches the
  width that was asked for.
- Theorem {lit}`filter_pointed`: setting the point keeps all digits in order.
-/

namespace NestedHover

namespace Decimal

/-- The decimal digits of a number, led by zeros up to the given width. -/
def padded (width number : Nat) : List Char :=
  let digits := Nat.toDigits 10 number
  List.replicate (width - digits.length) '0' ++ digits

theorem length_padded (width number : Nat) :
    (padded width number).length = max width (Nat.toDigits 10 number).length := by
  simp only [padded, List.length_append, List.length_replicate]
  omega

/-- The digits with a point that leaves the given number of places behind it. -/
def pointed (places : Nat) (digits : List Char) : List Char :=
  let whole := digits.length - places
  digits.take whole ++ '.' :: digits.drop whole

/-- Setting the point keeps all digits in order. -/
theorem filter_pointed (places : Nat) (digits : List Char)
    (h : '.' ∉ digits) : (pointed places digits).filter (· ≠ '.') = digits := by
  have htake : '.' ∉ digits.take (digits.length - places) :=
    fun hmem => h (List.mem_of_mem_take hmem)
  have hdrop : '.' ∉ digits.drop (digits.length - places) :=
    fun hmem => h (List.mem_of_mem_drop hmem)
  have keep : ∀ cs : List Char, '.' ∉ cs → cs.filter (· ≠ '.') = cs := by
    intro cs hcs
    rw [List.filter_eq_self]
    intro c hc
    simp only [ne_eq, decide_not, Bool.not_eq_eq_eq_not, Bool.not_true,
      decide_eq_false_iff_not]
    exact fun heq => hcs (heq ▸ hc)
  simp only [pointed, List.filter_append, List.filter_cons]
  rw [keep _ htake]
  simp only [ne_eq, not_true_eq_false, decide_false, Bool.false_eq_true, if_false]
  rw [show (fun x : Char => decide ¬x = '.') = (fun x => decide (x ≠ '.')) from rfl,
    keep _ hdrop, List.take_append_drop]

/-- The text of `steps * 10 ^ level` units of the finest grid. -/
def positional (steps level : Nat) : List Char :=
  if finestPlaces ≤ level then
    Nat.toDigits 10 steps ++ List.replicate (level - finestPlaces) '0'
  else
    let places := finestPlaces - level
    pointed places (padded (places + 1) steps)

end Decimal

/-! ## Coordinates -/

/-- The shortest text that reads back as the coordinate.  The sign of an
undefined coordinate is not written. -/
def Coordinate.text (c : Coordinate) : String :=
  let bits := c.toBits.toNat
  let magnitude := bits % 0x80000000
  let sign := if 0x80000000 ≤ bits then "-" else ""
  if c.isNaN then "NaN"
  else if c.isInf then sign ++ "inf"
  else if magnitude = 0 then sign ++ "0"
  else
    let form := (Decimal.Neighbourhood.ofBits magnitude).shortest Decimal.coarsestLevel
    sign ++ String.ofList (Decimal.positional form.1 form.2)

end NestedHover
