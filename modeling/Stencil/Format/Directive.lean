import Stencil.Text.Point

/-!
# Format directives

A format is a text in which a percent sign opens a directive: flags, a width, a precision, one
length letter that means nothing, and the letter of a conversion.  Two percent signs stand for one.
Width and precision are numbers, or stars that take them from the values.

Every text is a format.  A directive that breaks off is kept as it is and found wanting only when
its turn comes.

## Main definitions

* `Directive` — one directive.
* `Piece` — a directive, or a text that stands for itself.
* `Piece.ofFormat` — the pieces of a format.
-/

namespace Stencil.Format

/-- The flags of a directive. -/
structure Flags where
  /-- Padded on the right. -/
  left : Bool
  /-- A plus sign in front of what is not negative. -/
  plus : Bool
  /-- A blank in front of what is not negative. -/
  blank : Bool
  /-- The alternate form. -/
  alternate : Bool
  /-- Padded with zeros. -/
  zero : Bool
  deriving DecidableEq, Repr, Inhabited

/-- A width or a precision. -/
inductive Measure where
  /-- Not given. -/
  | absent
  /-- Given as a number. -/
  | fixed (n : Nat)
  /-- To be taken from the values. -/
  | star
  deriving DecidableEq, Repr, Inhabited

/-- One directive of a format. -/
structure Directive where
  /-- Whether it asks for a value by a key. -/
  keyed : Bool
  /-- Its flags. -/
  flags : Flags
  /-- Its least width. -/
  width : Measure
  /-- Its precision. -/
  precision : Measure
  /-- The letter of the conversion and its position in the format, unless the format ends before. -/
  conversion : Option (Point × Nat)
  deriving DecidableEq, Repr, Inhabited

/-- A piece of a format. -/
inductive Piece where
  /-- A text that stands for itself. -/
  | text (s : Points)
  /-- A directive. -/
  | directive (d : Directive)
  deriving DecidableEq, Repr, Inhabited

/-- Whether a code point is that of one of the ten digits of ASCII. -/
def isDigit (p : Point) : Bool := decide (48 ≤ p.val ∧ p.val < 58)

/-- The flag that a code point stands for, set. -/
def Flags.set? (f : Flags) (p : Point) : Option Flags :=
  if p = '-' then some { f with left := true }
  else if p = '+' then some { f with plus := true }
  else if p = ' ' then some { f with blank := true }
  else if p = '#' then some { f with alternate := true }
  else if p = '0' then some { f with zero := true }
  else none

/-- The flags at the start of a text, and the rest. -/
def takeFlags (f : Flags) : Points → Flags × Points
  | [] => (f, [])
  | p :: s =>
    match f.set? p with
    | some f => takeFlags f s
    | none => (f, p :: s)

/-- The number at the start of a text. -/
def takeNumber (s : Points) : Nat × Points :=
  ((s.takeWhile isDigit).foldl (fun n p => n * 10 + (p.val - 48)) 0, s.dropWhile isDigit)

/-- The width at the start of a text. -/
def takeWidth : Points → Measure × Points
  | [] => (.absent, [])
  | p :: s =>
    if p = '*' then (.star, s)
    else if isDigit p then
      let (n, rest) := takeNumber (p :: s)
      (.fixed n, rest)
    else (.absent, p :: s)

/-- The precision at the start of a text: a point, and a number or a star or nothing. -/
def takePrecision : Points → Measure × Points
  | [] => (.absent, [])
  | p :: s =>
    if p ≠ '.' then (.absent, p :: s)
    else if s.head? = some ('*' : Point) then (.star, s.tail)
    else
      let (n, rest) := takeNumber s
      (.fixed n, rest)

/-- The text without a length letter at its start. -/
def dropLength : Points → Points
  | [] => []
  | p :: s => if p = 'h' ∨ p = 'l' ∨ p = 'L' then s else p :: s

/-- The directive that starts after a percent sign, and the rest of a format of `size`
characters. -/
def takeDirective (size : Nat) (s : Points) : Directive × Points :=
  let keyed := decide (s.head? = some ('(' : Point))
  let (flags, s) := takeFlags default s
  let (width, s) := takeWidth s
  let (precision, s) := takePrecision s
  match dropLength s with
  | [] => (⟨keyed, flags, width, precision, none⟩, [])
  | p :: rest => (⟨keyed, flags, width, precision, some (p, size - (rest.length + 1))⟩, rest)

/-- The pieces of the end of a format of `size` characters, at most `fuel` of them. -/
def piecesUpTo (size : Nat) : (fuel : Nat) → Points → List Piece
  | 0, _ => []
  | _ + 1, [] => []
  | fuel + 1, p :: s =>
    if p ≠ '%' then
      .text (p :: s.takeWhile (· ≠ '%')) :: piecesUpTo size fuel (s.dropWhile (· ≠ '%'))
    else if s.head? = some ('%' : Point) then .text ['%'] :: piecesUpTo size fuel s.tail
    else
      let (d, rest) := takeDirective size s
      .directive d :: piecesUpTo size fuel rest

/-- The pieces of a format. -/
def Piece.ofFormat (s : Points) : List Piece := piecesUpTo s.length s.length s

end Stencil.Format
