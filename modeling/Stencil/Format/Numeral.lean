import Stencil.Number.Shortest

/-!
# Numerals of a given form

The digits of a number without its sign: an integer in a base with a least count of digits, or a
double with a count of places, as a mantissa and an exponent, or in the shorter of these two forms.

## Main definitions

* `integerDigits` — an integer in a base.
* `fixedText` — a number with a count of places.
* `scientificText` — a number with an exponent.
* `generalText` — a number with a count of significant digits.
-/

namespace Stencil.Format

/-- An integer in a base, with at least `least` digits. -/
def integerDigits (base least n : Nat) : List Char :=
  Text.padLeft '0' least (Nat.toDigits base n)

/-- The digits with a point in front of the last `places`, also in front of none if `always`. -/
def withPoint (always : Bool) (places : Nat) (digits : List Char) : List Char :=
  let whole := digits.length - places
  if places = 0 && !always then digits else digits.take whole ++ '.' :: digits.drop whole

/-- A number with `places` digits after the point. -/
def fixedText (always : Bool) (places : Nat) (d : Decimal) : List Char :=
  withPoint always places (integerDigits 10 (places + 1) (d.atPlaces places))

/-- A number as a digit, `places` digits after the point and an exponent. -/
def scientificText (always : Bool) (places : Nat) (d : Decimal) : List Char :=
  let (n, e) := d.significant (places + 1)
  withPoint always places (integerDigits 10 (places + 1) n) ++ 'e' :: Double.exponentText e

/-- The text without the zeros at its end, nor a point there. -/
def dropZeros (s : List Char) : List Char :=
  if s.contains '.' then
    let t := (s.reverse.dropWhile (· == '0')).reverse
    if t.getLast? = some '.' then t.dropLast else t
  else s

/-- A number with `count` significant digits: with an exponent when that is below -4 or not below
`count`, and without zeros at the end of the digits unless `always`. -/
def generalText (always : Bool) (count : Nat) (d : Decimal) : List Char :=
  let count := max count 1
  let (n, e) := d.significant count
  let digits := integerDigits 10 count n
  let tidy := fun s => if always then s else dropZeros s
  if e < -4 ∨ (count : Int) ≤ e then
    tidy (withPoint always (count - 1) digits) ++ 'e' :: Double.exponentText e
  else if e < 0 then
    tidy ('0' :: '.' :: List.replicate (-e - 1).toNat '0' ++ digits)
  else tidy (withPoint always (count - 1 - e.toNat) digits)

end Stencil.Format
