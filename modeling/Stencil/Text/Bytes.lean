/-!
# Byte strings and their hexadecimal digits

## Main definitions

* `Bytes` — byte strings.
* `hex` — a number in small hexadecimal digits, padded with zeros to a width.
* `decimal`, `decimalInt` — a number in decimal digits.
-/

namespace Stencil

/-- A byte string. -/
abbrev Bytes := List UInt8

namespace Text

/-- The text padded on the left with a character to at least `width` characters. -/
def padLeft (fill : Char) (width : Nat) (s : List Char) : List Char :=
  List.replicate (width - s.length) fill ++ s

/-- The number `n` in small hexadecimal digits, at least `width` of them. -/
def hex (width n : Nat) : List Char := padLeft '0' width (Nat.toDigits 16 n)

/-- The number `n` in decimal digits. -/
def decimal (n : Nat) : List Char := Nat.toDigits 10 n

/-- The number `n` in decimal digits, a minus sign in front of a negative one. -/
def decimalInt (n : Int) : List Char :=
  if n < 0 then '-' :: decimal n.natAbs else decimal n.natAbs

end Text

end Stencil
