/-!
# Unsigned numerals

A numeral is an optional plus sign and one or more ASCII digits, with any
number of leading zeros, that denotes a number up to a given limit.

Main results:

- Theorem {lit}`numeral?_eq_some_iff`: reading succeeds exactly on such texts,
  with the number that the digits denote.
-/

namespace NestedHover

namespace Text

/-- The number that a run of digits denotes. -/
def digitsValue (digits : List Char) : Nat :=
  digits.foldl (fun number digit => 10 * number + (digit.toNat - '0'.toNat)) 0

/-- The text behind an optional plus sign. -/
def withoutPlus : List Char → List Char
  | '+' :: rest => rest
  | cs => cs

/-- The number that a numeral denotes, if it is a numeral within the limit. -/
def numeral? (limit : Nat) (cs : List Char) : Option Nat :=
  let digits := withoutPlus cs
  if digits ≠ [] ∧ digits.all Char.isDigit ∧ digitsValue digits ≤ limit then
    some (digitsValue digits)
  else none

/-- Reading succeeds exactly on numerals within the limit. -/
theorem numeral?_eq_some_iff {limit number : Nat} {cs : List Char} :
    numeral? limit cs = some number ↔
      withoutPlus cs ≠ [] ∧ (∀ c ∈ withoutPlus cs, c.isDigit = true) ∧
        digitsValue (withoutPlus cs) = number ∧ number ≤ limit := by
  simp only [numeral?, Option.ite_none_right_eq_some, List.all_eq_true,
    Option.some.injEq]
  constructor
  · rintro ⟨⟨hne, hdigits, hle⟩, rfl⟩
    exact ⟨hne, hdigits, rfl, hle⟩
  · rintro ⟨hne, hdigits, rfl, hle⟩
    exact ⟨⟨hne, hdigits, hle⟩, rfl⟩

end Text

end NestedHover
