import Stencil.Text.Bytes

/-!
# Decimal numbers

A decimal number is a natural number of units of a power of ten.  Rounding goes to the nearest
number of a coarser unit, a half to the even neighbour.

## Main definitions

* `Decimal` — `digits` units of `10 ^ exponent`.
* `roundDiv` — division to the nearest, a half to the even neighbour.
* `Decimal.atPlaces` — the number in units of `10 ^ -places`.
* `Decimal.significant` — the number to a count of significant digits.
-/

namespace Stencil

/-- The quotient to the nearest natural number, a half to the even neighbour. -/
def roundDiv (n d : Nat) : Nat :=
  let q := n / d
  let r := n % d
  if 2 * r < d then q else if d < 2 * r then q + 1 else if q % 2 = 0 then q else q + 1

/-- The number `digits * 10 ^ exponent`. -/
structure Decimal where
  /-- How many units. -/
  digits : Nat
  /-- The power of ten that is the unit. -/
  exponent : Int
  deriving DecidableEq, Repr, Inhabited

namespace Decimal

/-- How many digits the number of units has. -/
def width (d : Decimal) : Nat := (Text.decimal d.digits).length

/-- The power of ten of the leading digit; that of zero is zero. -/
def magnitude (d : Decimal) : Int :=
  if d.digits = 0 then 0 else d.exponent + d.width - 1

/-- The number in units of `10 ^ unit`, rounded. -/
def unitsOf (unit : Int) (d : Decimal) : Nat :=
  if unit ≤ d.exponent then d.digits * Nat.pow 10 (d.exponent - unit).toNat
  else roundDiv d.digits (Nat.pow 10 (unit - d.exponent).toNat)

/-- The number in units of `10 ^ -places`, rounded. -/
def atPlaces (places : Nat) (d : Decimal) : Nat := d.unitsOf (-(places : Int))

/-- The number to `count` significant digits: the digits, and the power of ten of the first. -/
def significant (count : Nat) (d : Decimal) : Nat × Int :=
  if d.digits = 0 then (0, 0)
  else
    let n := d.unitsOf (d.magnitude - count + 1)
    if Nat.pow 10 count ≤ n then (n / 10, d.magnitude + 1) else (n, d.magnitude)

/-- The number without zeros at the end of its digits. -/
def trimmed (d : Decimal) : Decimal :=
  let ds := (Text.decimal d.digits).reverse
  let zeros := (ds.takeWhile (· == '0')).length
  if d.digits = 0 then ⟨0, 0⟩ else ⟨d.digits / Nat.pow 10 zeros, d.exponent + zeros⟩

end Decimal

end Stencil
