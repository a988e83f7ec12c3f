import Stencil.Value.Basic

/-!
# Values of plain scalars

A plain scalar stands for nothing, a truth value or a number if it is written like one, and for its
text otherwise.

## Main definitions

* `Yaml.resolve` — the value of a plain scalar.
-/

namespace Stencil.Yaml

/-- The words for nothing. -/
def nothingWords : List String := ["", "~", "null", "Null", "NULL"]

/-- The words for truth. -/
def trueWords : List String := ["true", "True", "TRUE"]

/-- The words for falsehood. -/
def falseWords : List String := ["false", "False", "FALSE"]

/-- A text without its sign, and whether that is a minus. -/
def unsigned : List Char → Bool × List Char
  | '-' :: s => (true, s)
  | '+' :: s => (false, s)
  | s => (false, s)

/-- Whether a character is a digit of a base or an underscore. -/
def isDigitOf (base : Nat) (c : Char) : Bool :=
  c == '_' || (c.isDigit && decide (c.toNat - 48 < base)) ||
    (base == 16 && (('a' ≤ c && c ≤ 'f') || ('A' ≤ c && c ≤ 'F')))

/-- The value of a digit. -/
def digitOf (c : Char) : Nat := if c.isDigit then c.toNat - 48 else c.toLower.toNat - 87

/-- The number in digits of a base with underscores among them; there must be a digit. -/
def numberIn? (base : Nat) (s : List Char) : Option Nat :=
  let digits := s.filter (· != '_')
  if !s.all (isDigitOf base) || digits.isEmpty then none
  else some (digits.foldl (fun n c => n * base + digitOf c) 0)

/-- The number in digits with a mark of their base in front. -/
def magnitude? : List Char → Option Nat
  | '0' :: 'b' :: s => numberIn? 2 s
  | '0' :: 'x' :: s => numberIn? 16 s
  | '0' :: 'o' :: s => numberIn? 8 s
  | s => numberIn? 10 s

/-- Whether a text starts like a number. -/
def startsNumber (s : List Char) : Bool :=
  s.head?.any fun c => c.isDigit || c == '-' || c == '+'

/-- The integer that a text spells. -/
def integer? (s : List Char) : Option Int :=
  let (negative, t) := unsigned s
  if !startsNumber s then none
  else (magnitude? t).map fun n => if negative then -(n : Int) else n

/-- Whether a text is an exponent; its sign may be required. -/
def isExponent (needsSign : Bool) : List Char → Bool
  | c :: s =>
    let (hasSign, digits) : Bool × List Char := match s with
      | '-' :: t => (true, t)
      | '+' :: t => (true, t)
      | t => (false, t)
    (c == 'e' || c == 'E') && (hasSign || !needsSign) && !digits.isEmpty && digits.all Char.isDigit
  | [] => false

/-- Whether a text without its sign spells a number that need not be an integer: with a point, an
exponent or both. -/
def isFraction (s : List Char) : Bool :=
  let figure (c : Char) : Bool := c.isDigit || c == '_'
  let whole := s.takeWhile figure
  match s.head?, s.dropWhile figure with
  | some '.', '.' :: rest =>
    let tail := rest.dropWhile figure
    !(rest.takeWhile figure).isEmpty && (tail.isEmpty || isExponent true tail)
  | _, '.' :: rest =>
    let tail := rest.dropWhile figure
    whole.head?.any Char.isDigit && (tail.isEmpty || isExponent false tail)
  | _, tail => whole.head?.any Char.isDigit && isExponent false tail

/-- The double that a text spells. -/
def double? (s : List Char) : Option Double :=
  let (negative, t) := unsigned s
  if t ∈ [".inf".toList, ".Inf".toList, ".INF".toList] then some (.infinity negative)
  else if s ∈ [".nan".toList, ".NaN".toList, ".NAN".toList] then some .nan
  else if isFraction t then Double.ofText? (s.filter (· != '_'))
  else none

/-- The value of a plain scalar; nothing where it spells no value, which a lone sign of equality
does not. -/
def resolve (s : List Char) : Option Value :=
  let text := String.ofList s
  if text ∈ nothingWords then some .none
  else if text ∈ trueWords then some (.bool true)
  else if text ∈ falseWords then some (.bool false)
  else if s = ['='] then none
  else
    match double? s, integer? s with
    | some x, _ => some (.float x)
    | none, some n => some (.int n)
    | none, none => some (.str text)

end Stencil.Yaml
