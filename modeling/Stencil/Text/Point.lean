import Stencil.Text.Bytes

/-!
# Code points

A text of data need not be one of characters: it may hold halves of pairs, which have code points
but are no characters.  So such a text is a row of code points, and a text of characters is one of
these rows.

## Main definitions

* `Point`, `Points` — code points, and texts of them.
* `Point.char?` — the character of a code point.
* `Points.chars?` — the characters of a text that has no halves.
* `Points.shown` — a text as messages show it.

## Main results

* `Point.char?_ofChar` — characters are shown as they are.
-/

namespace Stencil

/-- A code point: the number of a character, or of half of a pair. -/
abbrev Point := Fin 0x110000

/-- A text by its code points. -/
abbrev Points := List Point

namespace Point

/-- The code point of a character. -/
def ofChar (c : Char) : Point :=
  ⟨c.toNat, by
    rcases c.valid with h | ⟨-, h⟩
    · exact Nat.lt_trans h (by decide)
    · exact h⟩

instance : Coe Char Point := ⟨ofChar⟩

/-- Whether a code point is that of half of a pair, which is no character. -/
def isHalf (p : Point) : Bool := decide (0xD800 ≤ p.val ∧ p.val < 0xE000)

/-- The character of a code point, if it is one. -/
def char? (p : Point) : Option Char := if p.isHalf then none else some (Char.ofNat p.val)

/-- The escape of a code point, the shortest form that holds it. -/
def escaped (p : Point) : List Char :=
  if p.val < 0x100 then '\\' :: 'x' :: Text.hex 2 p.val
  else if p.val < 0x10000 then '\\' :: 'u' :: Text.hex 4 p.val
  else '\\' :: 'U' :: Text.hex 8 p.val

/-- A code point as messages show it: half of a pair is escaped. -/
def shown (p : Point) : List Char :=
  match p.char? with
  | some c => [c]
  | none => p.escaped

@[simp] theorem val_ofChar (c : Char) : (ofChar c).val = c.toNat := rfl

@[simp] theorem isHalf_ofChar (c : Char) : (ofChar c).isHalf = false := by
  have hvalid : c.toNat < 0xD800 ∨ 0xDFFF < c.toNat ∧ c.toNat < 0x110000 := c.valid
  unfold isHalf
  rw [val_ofChar]
  exact decide_eq_false (by omega)

/-- The code point of a character is that of this character. -/
@[simp] theorem char?_ofChar (c : Char) : (ofChar c).char? = some c := by
  rw [char?, isHalf_ofChar, if_neg Bool.false_ne_true, val_ofChar, Char.ofNat_toNat]

end Point

namespace Points

/-- The code points of characters. -/
def ofChars (s : List Char) : Points := s.map Point.ofChar

/-- The code points of a text. -/
def ofString (s : String) : Points := ofChars s.toList

instance : Coe String Points := ⟨ofString⟩

/-- The characters of a text, if it has no halves. -/
def chars? : Points → Option (List Char)
  | [] => some []
  | p :: s =>
    match p.char?, chars? s with
    | some c, some cs => some (c :: cs)
    | _, _ => none

/-- A text as messages show it: halves are escaped. -/
def shown (s : Points) : String := String.ofList (s.flatMap Point.shown)

@[simp] theorem ofChars_nil : ofChars [] = [] := rfl

@[simp] theorem ofChars_cons (c : Char) (s : List Char) : ofChars (c :: s) = ↑c :: ofChars s := rfl

@[simp] theorem ofChars_append (s t : List Char) : ofChars (s ++ t) = ofChars s ++ ofChars t := by
  simp [ofChars]

@[simp] theorem ofString_ofList (s : List Char) : ofString (String.ofList s) = ofChars s := by
  rw [ofString, String.toList_ofList]

end Points

end Stencil
