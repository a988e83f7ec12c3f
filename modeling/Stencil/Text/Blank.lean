import Stencil.Text.Ranges

/-!
# Blank characters

A character is blank when it separates words: the ASCII white space with the information
separators, and the spaces, line and paragraph separators of other scripts.

## Main definitions

* `isBlank` — whether a character is white space.
* `trim` — a text without the characters of a class at either end.
-/

namespace Stencil.Text

/-- The white space characters. -/
def blankRanges : Ranges := ⟨#[
  9, 14, 28, 33, 133, 134, 160, 161, 0x1680, 0x1681, 0x2000, 0x200b,
  0x2028, 0x202a, 0x202f, 0x2030, 0x205f, 0x2060, 0x3000, 0x3001]⟩

/-- Whether a character is white space. -/
def isBlank (c : Char) : Bool := blankRanges.contains c.toNat

/-- The text without the characters of a class at either end. -/
def trim (p : Char → Bool) (s : List Char) : List Char :=
  ((s.dropWhile p).reverse.dropWhile p).reverse

/-- Spaces and tabs. -/
def isSpaceOrTab (c : Char) : Bool := c == ' ' || c == '\t'

end Stencil.Text
