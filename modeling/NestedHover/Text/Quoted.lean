import NestedHover.Text.Extending
import NestedHover.Text.Unprintable

/-!
# Quoted text

A text is shown between double quotes, on one line and without invisible parts:
the quote, the backslash and the common control characters are escaped by name,
every other unprintable or extending character by its code point.  An
apostrophe stands for itself.

Main definitions:

- Definition {lit}`Text.quoted`: a text between quotes, spelled character by character.
-/

namespace NestedHover

namespace Text

/-- A character by its code point, in lower case hexadecimal without padding. -/
def codePointEscape (c : Char) : List Char :=
  ['\\', 'u', '\x7b'] ++ Nat.toDigits 16 c.toNat ++ ['\x7d']

/-- How a character appears between the quotes. -/
def spelling (c : Char) : List Char :=
  if c = '\x00' then ['\\', '0']
  else if c = '\t' then ['\\', 't']
  else if c = '\r' then ['\\', 'r']
  else if c = '\n' then ['\\', 'n']
  else if c = '"' then ['\\', '"']
  else if c = '\\' then ['\\', '\\']
  else if isExtending c || isUnprintable c then codePointEscape c
  else [c]

/-- A text between double quotes. -/
def quoted (text : String) : String :=
  String.ofList ('"' :: text.toList.flatMap spelling ++ ['"'])

end Text

end NestedHover
