import Stencil.Text.Point
import Stencil.Text.Printable

/-!
# Quoted texts

A quoted text stands between single quotes, or between double ones when it holds a single quote
and no double one.  The quote and the backslash are escaped by a backslash, tab, line feed and
carriage return by a letter, and what is not printable by its code point.

## Main definitions

* `quoteMark` — the quote that a text is put between.
* `quoted` — a text in quotes, as it may be printed.
* `quotedAscii` — the same in ASCII alone.
* `quotedBytes` — a byte string in quotes.
-/

namespace Stencil.Text

/-- The quote that a text is put between. -/
def quoteMark (single double : Bool) : Char := if single && !double then '"' else '\''

/-- The escape of a character that has a short one, between quotes of kind `q`. -/
def shortEscape? (q c : Char) : Option (List Char) :=
  if c = q ∨ c = '\\' then some ['\\', c]
  else if c = '\t' then some ['\\', 't']
  else if c = '\n' then some ['\\', 'n']
  else if c = '\r' then some ['\\', 'r']
  else none

/-- A code point between quotes of kind `q`; it is given as such unless it is that of a `plain`
character. -/
def quotedPoint (plain : Char → Bool) (q : Char) (p : Point) : List Char :=
  match p.char? with
  | none => p.escaped
  | some c =>
    match shortEscape? q c with
    | some s => s
    | none => if plain c then [c] else p.escaped

/-- A text in quotes, with what are no `plain` characters by their code points. -/
def quotedWith (plain : Char → Bool) (s : Points) : List Char :=
  let q := quoteMark (s.contains '\'') (s.contains '"')
  q :: s.flatMap (quotedPoint plain q) ++ [q]

/-- A text in quotes. -/
def quoted (s : Points) : String := String.ofList (quotedWith isPrintable s)

/-- Whether a character is printable and in ASCII. -/
def isPrintableAscii (c : Char) : Bool := decide (32 ≤ c.toNat ∧ c.toNat < 127)

/-- A text whose characters outside of ASCII are given by their code points. -/
def escapedAscii (s : String) : String :=
  String.ofList (s.toList.flatMap fun c => if c.toNat < 128 then [c] else (c : Point).escaped)

/-- A byte string in quotes, after the letter `b`. -/
def quotedBytes (bytes : Bytes) : String :=
  String.ofList
    ('b' :: quotedWith isPrintableAscii (bytes.map fun b => (Char.ofNat b.toNat : Point)))

end Stencil.Text
