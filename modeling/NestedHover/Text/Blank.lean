import NestedHover.Text.CodeRange

/-!
# Blank characters

A character is blank when it has the property White_Space, which reaches beyond
ASCII: the no-break space and the ideographic space are blank, the zero width
space is not.

Main results:

- Theorem {lit}`isBlank_of_isWhitespace`: the white space of ASCII is blank.
- Theorem {lit}`trimBlanks_eq_nil_iff`: trimming leaves nothing exactly when
  every character is blank.
-/

namespace NestedHover

namespace Text

/-- The code points with the property White_Space. -/
def blankRanges : List (Nat × Nat) :=
  [(0x0009, 0x000D), (0x0020, 0x0020), (0x0085, 0x0085), (0x00A0, 0x00A0),
    (0x1680, 0x1680), (0x2000, 0x200A), (0x2028, 0x2029), (0x202F, 0x202F),
    (0x205F, 0x205F), (0x3000, 0x3000)]

/-- Whether a character is blank. -/
def isBlank (c : Char) : Bool := inRanges blankRanges c

/-- The white space of ASCII is blank. -/
theorem isBlank_of_isWhitespace {c : Char} (h : c.isWhitespace = true) :
    isBlank c = true := by
  simp only [Char.isWhitespace, Bool.or_eq_true, decide_eq_true_eq] at h
  rcases h with ((rfl | rfl) | rfl) | rfl <;> decide

/-- A text without the blank characters at either end. -/
def trimBlanks (cs : List Char) : List Char :=
  ((cs.dropWhile isBlank).reverse.dropWhile isBlank).reverse

/-- Trimming leaves nothing exactly when every character is blank. -/
theorem trimBlanks_eq_nil_iff {cs : List Char} :
    trimBlanks cs = [] ↔ ∀ c ∈ cs, isBlank c = true := by
  have key : ∀ ds : List Char,
      ds.dropWhile isBlank = [] ↔ ∀ c ∈ ds, isBlank c = true := by
    intro ds
    induction ds with
    | nil => simp
    | cons d ds ih =>
        by_cases hd : isBlank d = true <;> simp [hd, ih]
  constructor
  · intro h
    rw [trimBlanks, List.reverse_eq_nil_iff, key] at h
    rw [← key]
    cases hrest : cs.dropWhile isBlank with
    | nil => rfl
    | cons c rest =>
        have hc : isBlank c = true := h c (by simp [hrest])
        have := List.head?_dropWhile_not isBlank cs
        simp [hrest, hc] at this
  · intro h
    simp [trimBlanks, (key cs).2 h]

end Text

end NestedHover
