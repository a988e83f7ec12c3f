/-!
# Cursors

A reader of YAML looks at a text from a place that it knows by line and column, since indentation
counts.  A line may end in a line feed, a carriage return, both, or one of three other breaks.

## Main definitions

* `Cursor` — a place in a text.
* `Cursor.skip`, `Cursor.skipBreak` — the place behind a character or a break.
* `Cursor.isDocumentMark` — whether a line starts that parts documents.
-/

namespace Stencil.Yaml

/-- A place in a text. -/
structure Cursor where
  /-- What comes after it. -/
  rest : List Char
  /-- How many characters are before it. -/
  index : Nat
  /-- How many lines are before it. -/
  line : Nat
  /-- How many characters of its line are before it. -/
  column : Nat
  deriving Repr, Inhabited

/-- Whether a character is a space or a tab. -/
def isGap (c : Char) : Bool := c == ' ' || c == '\t'

/-- Whether a character ends a line. -/
def isBreak (c : Char) : Bool :=
  c == '\n' || c == '\r' || c == '\u0085' || c == '\u2028' || c == '\u2029'

/-- Whether there is nothing, a gap or a break. -/
def isGapOrEnd (c : Option Char) : Bool := c.all fun c => isGap c || isBreak c

/-- Whether there is nothing or a break. -/
def isBreakOrEnd (c : Option Char) : Bool := c.all isBreak

namespace Cursor

/-- The start of a text. -/
def start (text : List Char) : Cursor := ⟨text, 0, 0, 0⟩

/-- The character `k` places ahead. -/
def ahead (p : Cursor) (k : Nat) : Option Char := p.rest[k]?

/-- The next character. -/
def next (p : Cursor) : Option Char := p.ahead 0

/-- Whether the next character is `c`. -/
def isAt (p : Cursor) (c : Char) : Bool := p.next == some c

/-- The place behind the next character, which is no break. -/
def skip (p : Cursor) : Cursor := ⟨p.rest.drop 1, p.index + 1, p.line, p.column + 1⟩

/-- The place behind the next `n` characters. -/
def skipMany (p : Cursor) (n : Nat) : Cursor := ⟨p.rest.drop n, p.index + n, p.line, p.column + n⟩

/-- The place behind a break. -/
def skipBreak (p : Cursor) : Cursor :=
  let width := if p.isAt '\r' && p.ahead 1 == some '\n' then 2 else 1
  ⟨p.rest.drop width, p.index + width, p.line + 1, 0⟩

/-- What a break counts as: a line feed, unless it is one of the two separators. -/
def breakChar (p : Cursor) : Char :=
  match p.next with
  | some '\u2028' => '\u2028'
  | some '\u2029' => '\u2029'
  | _ => '\n'

/-- The characters of a class ahead, and the place behind them. -/
def takeWhile (f : Char → Bool) (p : Cursor) : List Char × Cursor :=
  let taken := p.rest.takeWhile f
  (taken, p.skipMany taken.length)

/-- The place behind the characters of a class. -/
def skipWhile (f : Char → Bool) (p : Cursor) : Cursor := (p.takeWhile f).2

/-- Whether a line starts here with three of a character and nothing right behind them. -/
def isTriple (p : Cursor) (c : Char) : Bool :=
  p.column == 0 && p.isAt c && p.ahead 1 == some c && p.ahead 2 == some c && isGapOrEnd (p.ahead 3)

/-- Whether a line starts here that parts documents. -/
def isDocumentMark (p : Cursor) : Bool := p.isTriple '-' || p.isTriple '.'

end Cursor

end Stencil.Yaml
