/-!
# Sets of characters by their bounds

A set of characters is written as the ascending list of code points at which membership
changes: the first bound opens the set, the second closes it, and so on.  A code point is in
the set when an odd number of bounds lie at or below it.

## Main definitions

* `Ranges` — a set of code points by its bounds.
* `Ranges.contains` — membership, by bisection.
-/

namespace Stencil.Text

/-- A set of code points, as the ascending bounds at which membership changes. -/
structure Ranges where
  /-- The ascending bounds. -/
  bounds : Array Nat

namespace Ranges

/-- How many bounds are at most `c`, when those before `lo` are and those from `hi` on are not. -/
def rank (r : Ranges) (c : Nat) : (fuel lo hi : Nat) → Nat
  | 0, lo, _ => lo
  | fuel + 1, lo, hi =>
    if hi ≤ lo then lo
    else
      let mid := (lo + hi) / 2
      if r.bounds.getD mid 0 ≤ c then r.rank c fuel (mid + 1) hi else r.rank c fuel lo mid

/-- Whether the code point `c` is in the set. -/
def contains (r : Ranges) (c : Nat) : Bool :=
  r.rank c r.bounds.size 0 r.bounds.size % 2 == 1

end Ranges

end Stencil.Text
