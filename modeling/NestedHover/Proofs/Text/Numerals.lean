import NestedHover.Text.Blank
import NestedHover.Text.Numeral
import Mathlib.Data.List.Induction
import Mathlib.Data.Nat.Digits.Defs

/-!
# Trimmed texts and the numbers that they denote

A text is trimmed by taking the blanks off both of its ends.  A numeral is an optional plus
sign with ASCII digits behind it, at least one, and it denotes their value in the decimal
system; zeros in front do not matter.  Here both are said without telling how to read a text,
and the reader is measured against that.

Main results:

- Theorem {lit}`trims_iff`: a text is trimmed to what lies between its blank ends, and to
  nothing else.
- Theorem {lit}`digitsValue_eq_ofDigits`: reading digits from the left gives the sum of all
  digits, each weighted by its place.
- Theorem {lit}`numeral?_eq_some_iff_denotes`: reading succeeds exactly on texts that denote a
  number within the limit, and gives that number.
-/

namespace NestedHover

namespace Text

variable {cs trimmed : List Char} {number limit : Nat}

/-! ## Trimming -/

/-- What is left of a text between blanks at the front and blanks at the back, and has no
blank at either end. -/
structure Trims (cs trimmed : List Char) : Prop where
  between : ∃ front back, cs = front ++ (trimmed ++ back) ∧
    (∀ c ∈ front, isBlank c = true) ∧ ∀ c ∈ back, isBlank c = true
  head_not_blank : ∀ c, trimmed.head? = some c → isBlank c = false
  getLast_not_blank : ∀ c, trimmed.getLast? = some c → isBlank c = false

/-- What is left behind the blanks at the front does not begin with one. -/
theorem isBlank_of_head?_dropWhile {c : Char} (h : (cs.dropWhile isBlank).head? = some c) :
    isBlank c = false := by
  have hnot := List.head?_dropWhile_not isBlank cs
  rwa [h] at hnot

/-- The blanks at the front go, and nothing behind a character that is not blank. -/
theorem dropWhile_isBlank_append {front rest : List Char}
    (hfront : ∀ c ∈ front, isBlank c = true)
    (hrest : ∀ c, rest.head? = some c → isBlank c = false) :
    (front ++ rest).dropWhile isBlank = rest := by
  rw [List.dropWhile_append_of_pos hfront]
  cases rest with
  | nil => rfl
  | cons c rest =>
      have hc : isBlank c = false := hrest c rfl
      exact List.dropWhile_cons_of_neg (by simp [hc])

/-- Trimming leaves what lies between the blank ends. -/
theorem trims_trimBlanks (cs : List Char) : Trims cs (trimBlanks cs) := by
  let inner := cs.dropWhile isBlank
  let back := inner.reverse.takeWhile isBlank
  have hinner : inner = trimBlanks cs ++ back.reverse := by
    have hsplit : back ++ inner.reverse.dropWhile isBlank = inner.reverse :=
      List.takeWhile_append_dropWhile
    rw [trimBlanks, ← List.reverse_append, hsplit, List.reverse_reverse]
  refine ⟨⟨cs.takeWhile isBlank, back.reverse, ?_, ?_, ?_⟩, ?_, ?_⟩
  · rw [← hinner, List.takeWhile_append_dropWhile]
  · exact List.all_eq_true.mp List.all_takeWhile
  · intro c hc
    exact List.all_eq_true.mp List.all_takeWhile c (List.mem_reverse.mp hc)
  · intro c hc
    have hhead : inner.head? = some c := by
      rw [hinner, List.head?_append, hc]
      rfl
    exact isBlank_of_head?_dropWhile hhead
  · intro c hc
    rw [trimBlanks, List.getLast?_reverse] at hc
    exact isBlank_of_head?_dropWhile hc

/-- A text is trimmed to what lies between its blank ends, and to nothing else. -/
theorem trims_iff : Trims cs trimmed ↔ trimBlanks cs = trimmed := by
  constructor
  · rintro ⟨⟨front, back, rfl, hfront, hback⟩, hhead, hlast⟩
    cases trimmed with
    | nil =>
        rw [trimBlanks_eq_nil_iff]
        intro c hc
        exact (List.mem_append.mp hc).elim (hfront c) (hback c)
    | cons first rest =>
        rw [trimBlanks, dropWhile_isBlank_append hfront (by simpa using hhead),
          List.reverse_append, dropWhile_isBlank_append, List.reverse_reverse]
        · intro c hc
          exact hback c (List.mem_reverse.mp hc)
        · intro c hc
          rw [List.head?_reverse] at hc
          exact hlast c hc
  · rintro rfl
    exact trims_trimBlanks cs

/-! ## Numerals -/

/-- The number that a digit stands for. -/
def digitValue (c : Char) : Nat := c.toNat - '0'.toNat

/-- The text is an optional plus sign with at least one ASCII digit behind it, and the digits
have the given value: the last one counts ones, the one before it tens, and so on. -/
def Denotes (cs : List Char) (number : Nat) : Prop :=
  ∃ digits, (cs = digits ∨ cs = '+' :: digits) ∧ digits ≠ [] ∧
    (∀ c ∈ digits, c.isDigit = true) ∧
    Nat.ofDigits 10 (digits.reverse.map digitValue) = number

/-- One more digit makes ten of every one before it. -/
theorem digitsValue_concat (digits : List Char) (d : Char) :
    digitsValue (digits ++ [d]) = digitValue d + 10 * digitsValue digits := by
  simp [digitsValue, digitValue, List.foldl_append, Nat.add_comm]

/-- Reading digits from the left gives the sum of all digits, each weighted by its place. -/
theorem digitsValue_eq_ofDigits (digits : List Char) :
    digitsValue digits = Nat.ofDigits 10 (digits.reverse.map digitValue) := by
  induction digits using List.reverseRecOn with
  | nil => rfl
  | append_singleton digits d ih =>
      rw [digitsValue_concat, ih, List.reverse_append, List.reverse_singleton,
        List.singleton_append, List.map_cons, Nat.ofDigits_cons]

/-- A text without a plus sign in front is read whole. -/
theorem withoutPlus_of_isDigit {digits : List Char} (h : ∀ c ∈ digits, c.isDigit = true) :
    withoutPlus digits = digits := by
  cases digits with
  | nil => rfl
  | cons c rest =>
      have hc : c ≠ '+' := by
        rintro rfl
        exact absurd (h '+' List.mem_cons_self) (by decide)
      unfold withoutPlus
      split
      · rename_i hplus
        exact absurd (List.cons.inj hplus).1 hc
      · rfl

/-- Taking the plus sign off leaves the digits, and nothing but a plus sign is taken off. -/
theorem eq_or_eq_cons_withoutPlus (cs : List Char) :
    cs = withoutPlus cs ∨ cs = '+' :: withoutPlus cs := by
  unfold withoutPlus
  split
  · exact Or.inr rfl
  · exact Or.inl rfl

/-- Reading succeeds exactly on texts that denote a number within the limit. -/
theorem numeral?_eq_some_iff_denotes :
    numeral? limit cs = some number ↔ Denotes cs number ∧ number ≤ limit := by
  rw [numeral?_eq_some_iff]
  constructor
  · rintro ⟨hne, hdigits, hvalue, hle⟩
    rw [digitsValue_eq_ofDigits] at hvalue
    exact ⟨⟨withoutPlus cs, eq_or_eq_cons_withoutPlus cs, hne, hdigits, hvalue⟩, hle⟩
  · rintro ⟨⟨digits, hform, hne, hdigits, hvalue⟩, hle⟩
    have hrest : withoutPlus cs = digits := by
      rcases hform with rfl | rfl
      · exact withoutPlus_of_isDigit hdigits
      · rfl
    rw [hrest, digitsValue_eq_ofDigits]
    exact ⟨hne, hdigits, hvalue, hle⟩

/-- A text that denotes no number within the limit cannot be read. -/
theorem numeral?_eq_none_iff :
    numeral? limit cs = none ↔ ∀ number, Denotes cs number → limit < number := by
  rw [Option.eq_none_iff_forall_ne_some]
  simp only [ne_eq, numeral?_eq_some_iff_denotes, not_and, Nat.not_le]

end Text

end NestedHover
