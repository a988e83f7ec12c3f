import Stencil.Number.Shortest
import Stencil.Text.Quoted
import Stencil.Value.Basic

/-!
# The texts of values

A value has two texts: the displayed one, in which a text stands for itself, and the literal one,
in which it is quoted.  The parts of a value are always written literally.  The literal text is one
of characters, the displayed one may hold halves of pairs.

The texts are given here however long they are; the digits that integers have in them are counted
apart, for surroundings that limit them.

## Main definitions

* `Value.literal` — the literal text.
* `Value.display` — the displayed text.
* `Value.tupleText` — the literal text of a tuple of values.
* `Value.digits`, `Value.shownDigits` — the most digits of an integer in the literal text and in the
  displayed one.
-/

namespace Stencil.Value

/-- The texts with a comma and a blank between any two. -/
def commaSeparated (parts : List String) : String := ", ".intercalate parts

/-- A text between two others. -/
def enclosed (opening closing : String) (parts : List String) : String :=
  opening ++ commaSeparated parts ++ closing

/-- The text of a tuple by the texts of its members; a single one has a comma after it. -/
def tupleOf : List String → String
  | [part] => "(" ++ part ++ ",)"
  | parts => enclosed "(" ")" parts

/-- The text of a type's value without parts. -/
def angled (name : String) : String := "<" ++ name ++ ">"

/-- The text of an integer. -/
def intText (n : Int) : String := String.ofList (Text.decimalInt n)

mutual

/-- The literal text of a value. -/
def literal : Value → String
  | none => "None"
  | bool b => if b then "True" else "False"
  | int n => intText n
  | float x => x.text
  | str s => Text.quoted s
  | bytes b mutable =>
    if mutable then "bytearray(" ++ Text.quotedBytes b ++ ")" else Text.quotedBytes b
  | list items => enclosed "[" "]" (literals items)
  | tuple items => tupleOf (literals items)
  | map entries => enclosed "\x7b" "\x7d" (entryTexts entries)
  | range start stop step =>
    enclosed "range(" ")"
      ((if step = 1 then [start, stop] else [start, stop, step]).map intText)
  | record .plain type _ => angled type
  | record _ type fields => enclosed (type ++ "(") ")" (fieldTexts fields)
  | box _ => angled "Box"
  | callable type => angled type
  | sealed type => angled type
  | metatype name => "<class '" ++ name ++ "'>"
  | member type name value => angled (type ++ "." ++ name ++ ": " ++ value.literal)

/-- The literal texts of values. -/
def literals : List Value → List String
  | [] => []
  | v :: vs => v.literal :: literals vs

/-- The texts of the entries of a map. -/
def entryTexts : List (Value × Value) → List String
  | [] => []
  | (k, v) :: es => (k.literal ++ ": " ++ v.literal) :: entryTexts es

/-- The texts of the fields of a record. -/
def fieldTexts : List (String × Value) → List String
  | [] => []
  | (f, v) :: fs => (f ++ "=" ++ v.literal) :: fieldTexts fs

end

/-- The displayed text of a value. -/
def display : Value → Points
  | str s => s
  | member type name _ => ↑(type ++ "." ++ name)
  | v => ↑v.literal

@[simp] theorem display_str (s : Points) : (str s).display = s := rfl

/-- The literal text of a tuple of values. -/
def tupleText (vs : List Value) : String := tupleOf (literals vs)

/-! ### Digits -/

/-- The number of digits of an integer. -/
def digitCount (n : Int) : Nat := (Text.decimal n.natAbs).length

mutual

/-- The most digits of an integer in the literal text of a value. -/
def digits : Value → Nat
  | int n => digitCount n
  | list items => mostDigits items
  | tuple items => mostDigits items
  | map entries => entryDigits entries
  | range start stop step => max (max (digitCount start) (digitCount stop)) (digitCount step)
  | record .plain _ _ => 0
  | record _ _ fields => fieldDigits fields
  | member _ _ value => value.digits
  | _ => 0

/-- The most digits of an integer in the literal texts of values. -/
def mostDigits : List Value → Nat
  | [] => 0
  | v :: vs => max v.digits (mostDigits vs)

/-- The most digits of an integer in the texts of the entries of a map. -/
def entryDigits : List (Value × Value) → Nat
  | [] => 0
  | (k, v) :: es => max (max k.digits v.digits) (entryDigits es)

/-- The most digits of an integer in the texts of the fields of a record. -/
def fieldDigits : List (String × Value) → Nat
  | [] => 0
  | (_, v) :: fs => max v.digits (fieldDigits fs)

end

/-- The most digits of an integer in the displayed text of a value. -/
def shownDigits : Value → Nat
  | member _ _ _ => 0
  | v => v.digits

/-- The integers in the displayed text are in the literal one, too. -/
theorem shownDigits_le (v : Value) : v.shownDigits ≤ v.digits := by
  cases v with
  | member type name value => exact Nat.zero_le _
  | _ => exact Nat.le_refl _

end Stencil.Value
