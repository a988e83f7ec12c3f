import Stencil.Number.Limit
import Stencil.Text.Blank
import Stencil.Text.Digit
import Stencil.Value.Text

/-!
# Whole numbers of values

A number of bytes may be given as any value that is a number or spells one.  A text spells a whole
number by an optional sign and digits of any script, single underscores between digits, and white
space around it all.

## Main definitions

* `Value.WholeError` — why a value is no whole number.
* `Value.whole` — the whole number that a value is or spells.
-/

namespace Stencil.Value

/-- Why a value is no whole number. -/
inductive WholeError where
  /-- The undefined number has no integer part. -/
  | undefined
  /-- An infinity has no integer part. -/
  | unbounded
  /-- The text, given literally, spells no number. -/
  | notANumeral (literal : String)
  /-- Values of this type are no numbers. -/
  | notANumber (typeName : String)
  /-- The text spells a number by more digits than are read. -/
  | tooManyDigits (most digits : Nat)
  deriving DecidableEq, Repr

/-- The text without the underscores that stand between two digits; none if one stands elsewhere. -/
def withoutUnderscores? : (afterDigit : Bool) → List Char → Option (List Char)
  | _, [] => some []
  | afterDigit, '_' :: c :: s =>
    if afterDigit && Text.isDigit c then withoutUnderscores? false (c :: s) else Option.none
  | _, ['_'] => Option.none
  | _, c :: s => (withoutUnderscores? (Text.isDigit c) s).map (c :: ·)

/-- Whether a character may stand around a numeral: white space, the separators of records aside. -/
def isNumeralBlank (c : Char) : Bool := Text.isBlank c && !decide (28 ≤ c.toNat ∧ c.toNat < 32)

/-- The whole number that a text spells, with characters of a class around it. -/
def numeral? (around : Char → Bool) (s : List Char) : Option Int :=
  (withoutUnderscores? false (Text.trim around s)).bind Text.integer?

/-- The whole number that a text spells, which has a literal text; its digits must not be too
many. -/
def spelled [DigitLimit] (around : Char → Bool) (literal : String) (s : List Char) :
    Except WholeError Int :=
  match numeral? around s with
  | Option.none => .error (.notANumeral literal)
  | some n =>
    let digits := s.countP Text.isDigit
    match DigitLimit.exceeded? digits with
    | some most => .error (.tooManyDigits most digits)
    | Option.none => .ok n

/-- The whole number that a value is or spells. -/
def whole [DigitLimit] (v : Value) : Except WholeError Int :=
  match v with
  | bool b => .ok (if b then 1 else 0)
  | int n => .ok n
  | float x =>
    match x, x.truncate? with
    | _, some n => .ok n
    | .nan, Option.none => .error .undefined
    | _, Option.none => .error .unbounded
  | str s =>
    match s.chars? with
    | some cs => spelled isNumeralBlank v.literal cs
    | Option.none => .error (.notANumeral v.literal)
  | bytes b _ =>
    spelled (fun c => isNumeralBlank c && decide (c.toNat < 128)) (Text.quotedBytes b)
      (b.map fun x => Char.ofNat x.toNat)
  | _ => .error (.notANumber v.typeName)

end Stencil.Value
