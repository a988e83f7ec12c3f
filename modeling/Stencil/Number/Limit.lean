/-!
# A limit on digits

To read or write an integer in decimal takes time that grows faster than its digits do.  So the
surroundings of a program may have a limit on them, beyond which the conversion fails.

## Main definitions

* `DigitLimit` — surroundings with such a limit, or without.
* `DigitLimit.exceeded?` — the limit that a number of digits is beyond.
* `DigitLimit.message` — that it is, in words.
-/

namespace Stencil

/-- What the surroundings say about the digits of integers. -/
class DigitLimit where
  /-- The most digits that are read or written, if there is a limit. -/
  most? : Option Nat

namespace DigitLimit

/-- Where nothing else is said there is no limit. -/
instance (priority := low) unlimited : DigitLimit := ⟨none⟩

/-- The limit that a number of digits is beyond, if it is. -/
def exceeded? [DigitLimit] (digits : Nat) : Option Nat :=
  most?.bind fun most => if most < digits then some most else none

/-- A limit that is exceeded is exceeded by more digits, too. -/
theorem exceeded?_mono [DigitLimit] {m n most : Nat} (h : m ≤ n) (hm : exceeded? m = some most) :
    exceeded? n = some most := by
  unfold exceeded? at hm ⊢
  obtain ⟨most', hmost, hlt⟩ := Option.bind_eq_some_iff.1 hm
  rw [hmost, Option.bind_some]
  split at hlt
  · next hlt' =>
    cases hlt
    rw [if_pos (Nat.lt_of_lt_of_le hlt' h)]
  · cases hlt

/-- What is wrong with an integer that has more digits than `most`, in words; `found` tells how many
it has, where that is told. -/
def message (most : Nat) (found : String) : String :=
  s!"Exceeds the limit ({most} digits) for integer string conversion{found}; " ++
    "use sys.set_int_max_str_digits() to increase the limit"

end DigitLimit

end Stencil
