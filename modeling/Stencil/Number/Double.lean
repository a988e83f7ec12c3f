import Stencil.Number.Decimal

/-!
# Double-precision numbers

A finite double is a sign, a mantissa below `2 ^ 53` and the power of two of its unit, which is
`2 ^ -1074` at the least.  Rounding is to the nearest double, a half to the even mantissa, and what
is beyond the largest one becomes infinite.

## Main definitions

* `Double` — the doubles, infinities and the undefined number.
* `Double.ofRatio` — the double nearest to a quotient.
* `Double.ofDecimal`, `Double.ofText?` — the double nearest to a decimal number, and to its text.
* `Double.exact` — the magnitude of a finite double as a decimal number.
* `Double.truncate?` — the integer part.
-/

namespace Stencil

/-- A double-precision number. -/
inductive Double where
  /-- No number. -/
  | nan
  /-- An infinity. -/
  | infinity (negative : Bool)
  /-- The number `± mantissa * 2 ^ exponent`. -/
  | finite (negative : Bool) (mantissa : Nat) (exponent : Int)
  deriving DecidableEq, Repr, Inhabited

namespace Double

/-- The power of two of the smallest unit. -/
def leastExponent : Int := -1074

/-- The power of two of the largest unit. -/
def greatestExponent : Int := 971

/-- Zero with a sign. -/
def zero (negative : Bool) : Double := .finite negative 0 leastExponent

/-- The quotient `num / den` in units of `2 ^ e`, rounded down. -/
def scaledDown (num den : Nat) (e : Int) : Nat :=
  if 0 ≤ e then num / (den * Nat.pow 2 e.toNat) else num * Nat.pow 2 (-e).toNat / den

/-- The quotient `num / den` in units of `2 ^ e`, rounded. -/
def scaled (num den : Nat) (e : Int) : Nat :=
  if 0 ≤ e then roundDiv num (den * Nat.pow 2 e.toNat)
  else roundDiv (num * Nat.pow 2 (-e).toNat) den

/-- The double nearest to `± num / den`. -/
def ofRatio (negative : Bool) (num den : Nat) : Double :=
  if num = 0 then zero negative
  else
    let guess : Int := (num.log2 : Int) - den.log2 - 52
    let fitted :=
      if Nat.pow 2 53 ≤ scaledDown num den guess then guess + 1
      else if scaledDown num den guess < Nat.pow 2 52 then guess - 1
      else guess
    let e := max fitted leastExponent
    let m := scaled num den e
    let (m, e) := if m = Nat.pow 2 53 then (Nat.pow 2 52, e + 1) else (m, e)
    if greatestExponent < e then .infinity negative else .finite negative m e

/-- The double nearest to an integer. -/
def ofInt (n : Int) : Double := ofRatio (decide (n < 0)) n.natAbs 1

/-- The double nearest to a decimal number. -/
def ofDecimal (negative : Bool) (d : Decimal) : Double :=
  let top := d.exponent + d.width
  if d.digits = 0 then zero negative
  else if 400 < top then .infinity negative
  else if top < -400 then zero negative
  else if 0 ≤ d.exponent then ofRatio negative (d.digits * Nat.pow 10 d.exponent.toNat) 1
  else ofRatio negative d.digits (Nat.pow 10 (-d.exponent).toNat)

/-- The mantissa and exponent of a finite number as a decimal number, exactly. -/
def exact (m : Nat) (e : Int) : Decimal :=
  if 0 ≤ e then ⟨m * Nat.pow 2 e.toNat, 0⟩ else ⟨m * Nat.pow 5 (-e).toNat, e⟩

/-- The integer part of a finite number. -/
def truncate? : Double → Option Int
  | .finite n m e =>
    let k := if 0 ≤ e then m * Nat.pow 2 e.toNat else m / Nat.pow 2 (-e).toNat
    some (if n then -(k : Int) else k)
  | _ => none

/-- Whether the number is the integer `n`. -/
def equalsInt (x : Double) (n : Int) : Bool :=
  match x with
  | .finite neg m e =>
    if 0 ≤ e then
      (if neg then -((m * Nat.pow 2 e.toNat : Nat) : Int) else (m * Nat.pow 2 e.toNat : Nat)) == n
    else (if neg then -(m : Int) else m) == n * (Nat.pow 2 (-e).toNat : Nat)
  | _ => false

/-- Equality of numbers: zeros are equal whatever their signs, and no number is undefined. -/
def equals : Double → Double → Bool
  | .infinity a, .infinity b => a == b
  | .finite a m e, .finite b n f => (m == 0 && n == 0) || (a == b && m == n && e == f)
  | _, _ => false

/-! ### Reading -/

/-- The digits at the start of a text, and the rest. -/
def takeDigits (s : List Char) : List Char × List Char :=
  (s.takeWhile Char.isDigit, s.dropWhile Char.isDigit)

/-- The number that ASCII digits spell. -/
def digitsValue (s : List Char) : Nat := s.foldl (fun n c => n * 10 + (c.toNat - 48)) 0

/-- An exponent: nothing, or the letter `e`, an optional sign and digits to the end. -/
def exponent? : List Char → Option Int
  | [] => some 0
  | c :: s =>
    if c ≠ 'e' ∧ c ≠ 'E' then none
    else
      let (negative, ds) : Bool × List Char := match s with
        | '-' :: t => (true, t)
        | '+' :: t => (false, t)
        | t => (false, t)
      if ds.isEmpty || !ds.all Char.isDigit then none
      else some (if negative then -(digitsValue ds : Int) else digitsValue ds)

/-- A number without a sign: digits with an optional point, and an optional exponent. -/
def decimal? (s : List Char) : Option Decimal :=
  let (whole, rest) := takeDigits s
  let (part, rest) := match rest with
    | '.' :: t => takeDigits t
    | t => ([], t)
  if whole.isEmpty && part.isEmpty then none
  else (exponent? rest).map fun e => ⟨digitsValue (whole ++ part), e - part.length⟩

/-- The double that a text spells: a number, an infinity or `nan`, after an optional sign. -/
def ofText? (s : List Char) : Option Double :=
  let (negative, t) : Bool × List Char := match s with
    | '-' :: t => (true, t)
    | '+' :: t => (false, t)
    | t => (false, t)
  let word := t.map Char.toLower
  if word = ['n', 'a', 'n'] then some .nan
  else if word = ['i', 'n', 'f'] ∨ word = ['i', 'n', 'f', 'i', 'n', 'i', 't', 'y'] then
    some (.infinity negative)
  else (decimal? t).map (ofDecimal negative)

end Double

end Stencil
