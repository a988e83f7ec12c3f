import Stencil.Number.Double

/-!
# The shortest decimal that reads back

Every double is the nearest one to all numbers of an interval around it, which has its ends when
the mantissa is even.  Of the decimal numbers in that interval, the shortest text is one with the
fewest digits, and of those the nearest to the double.  On the grid of numbers with a given count
of digits, only the two neighbours of the double need to be looked at.

## Main definitions

* `Double.Neighbourhood` — a double and the ends of its interval in a common unit.
* `Double.shortest` — the shortest decimal number that reads back.
* `Double.text` — the text of a double.
-/

namespace Stencil.Double

/-- A number and the ends of the interval that reads back to it, in units of `10 ^ unit`. -/
structure Neighbourhood where
  /-- The power of ten that is the unit. -/
  unit : Int
  /-- The lower end. -/
  low : Nat
  /-- The number itself. -/
  value : Nat
  /-- The upper end. -/
  high : Nat
  /-- Whether the ends read back too. -/
  closed : Bool
  deriving Repr

/-- The interval that reads back to `m * 2 ^ e`. -/
def neighbourhood (m : Nat) (e : Int) : Neighbourhood :=
  let quarter := e - 2
  -- a unit of `10 ^ -n` is `2 ^ -n` divided by `5 ^ n`
  let scale := if 0 ≤ quarter then Nat.pow 2 quarter.toNat else Nat.pow 5 (-quarter).toNat
  -- below a power of two the doubles are twice as close as above it
  let below := if m = Nat.pow 2 52 ∧ leastExponent < e then 1 else 2
  ⟨min quarter 0, (4 * m - below) * scale, 4 * m * scale, (4 * m + 2) * scale, m % 2 == 0⟩

/-- Whether a number of units reads back. -/
def Neighbourhood.contains (i : Neighbourhood) (n : Nat) : Bool :=
  if i.closed then decide (i.low ≤ n ∧ n ≤ i.high) else decide (i.low < n ∧ n < i.high)

/-- The nearest multiple of `step` that reads back, of the two around the number. -/
def Neighbourhood.onGrid? (i : Neighbourhood) (step : Nat) : Option Nat :=
  let down := i.value / step * step
  let up := down + step
  match i.contains down, i.contains up with
  | false, false => none
  | true, false => some down
  | false, true => some up
  | true, true =>
    if i.value - down < up - i.value then some down
    else if up - i.value < i.value - down then some up
    -- halfway between, the even multiple is taken
    else if down / step % 2 = 0 then some down
    else some up

/-- The first grid, from the coarsest of `10 ^ k` on, that has a number that reads back. -/
def Neighbourhood.search (i : Neighbourhood) : Nat → Nat
  | 0 => i.value
  | k + 1 => (i.onGrid? (Nat.pow 10 (k + 1))).getD (i.search k)

/-- The shortest decimal number that reads back to `m * 2 ^ e`. -/
def shortest (m : Nat) (e : Int) : Decimal :=
  let i := neighbourhood m e
  Decimal.trimmed ⟨i.search ((Text.decimal i.value).length), i.unit⟩

/-! ### Texts -/

/-- An exponent with its sign and two digits at the least. -/
def exponentText (e : Int) : List Char :=
  (if e < 0 then '-' else '+') :: Text.padLeft '0' 2 (Text.decimal e.natAbs)

/-- The digits with a point after the first `whole` of them, if any digits follow. -/
def pointed (whole : Nat) (digits : List Char) : List Char :=
  if digits.length ≤ whole then digits else digits.take whole ++ '.' :: digits.drop whole

/-- The text of a number without its sign: positional from `10 ^ -4` to below `10 ^ 16` and with
a digit after the point, otherwise with an exponent. -/
def magnitudeText (d : Decimal) : List Char :=
  let ds := Text.decimal d.digits
  let point := d.exponent + ds.length
  if d.digits = 0 then ['0', '.', '0']
  else if -4 < point ∧ point ≤ 16 then
    if point ≤ 0 then '0' :: '.' :: List.replicate (-point).toNat '0' ++ ds
    else if (ds.length : Int) ≤ point then
      ds ++ List.replicate (point.toNat - ds.length) '0' ++ ['.', '0']
    else pointed point.toNat ds
  else pointed 1 ds ++ 'e' :: exponentText (point - 1)

/-- The text of a double. -/
def text : Double → String
  | .nan => "nan"
  | .infinity n => if n then "-inf" else "inf"
  | .finite n m e =>
    String.ofList ((if n then ['-'] else []) ++
      (if m = 0 then ['0', '.', '0'] else magnitudeText (shortest m e)))

end Stencil.Double
