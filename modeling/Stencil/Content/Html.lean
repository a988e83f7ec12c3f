import Stencil.Text.Point

/-!
# Escaping for HTML

Markup characters are replaced by entities, so that a text can stand in an element or in a quoted
attribute.  The NUL character, which HTML does not allow, becomes the replacement character.

## Main definitions

* `Html.escapeChar`, `Html.escape` — a character and a text of characters, escaped.
* `Html.escapePoints` — any text, escaped.
* `Html.spanStart`, `Html.spanEnd` — the tags of a span element.
-/

namespace Stencil.Html

/-- A character as it may stand in a text of HTML. -/
def escapeChar (c : Char) : List Char :=
  if c = '<' then ['&', 'l', 't', ';']
  else if c = '>' then ['&', 'g', 't', ';']
  else if c = '&' then ['&', 'a', 'm', 'p', ';']
  else if c = '"' then ['&', 'q', 'u', 'o', 't', ';']
  else if c = '\'' then ['&', 'a', 'p', 'o', 's', ';']
  else if c = '\x00' then ['\ufffd']
  else [c]

/-- A text as it may stand in HTML, by characters. -/
def escapeChars (s : List Char) : List Char := s.flatMap escapeChar

@[simp] theorem escapeChars_nil : escapeChars [] = [] := rfl

@[simp] theorem escapeChars_cons (c : Char) (s : List Char) :
    escapeChars (c :: s) = escapeChar c ++ escapeChars s := rfl

@[simp] theorem escapeChars_append (s t : List Char) :
    escapeChars (s ++ t) = escapeChars s ++ escapeChars t := by
  simp [escapeChars]

/-- A text as it may stand in HTML. -/
def escape (s : String) : String := String.ofList (escapeChars s.toList)

/-- A code point as it may stand in a text of HTML; half of a pair stays as it is. -/
def escapePoint (p : Point) : Points :=
  match p.char? with
  | some c => .ofChars (escapeChar c)
  | none => [p]

/-- Any text as it may stand in HTML. -/
def escapePoints (s : Points) : Points := s.flatMap escapePoint

/-- A text of characters is escaped as such. -/
@[simp] theorem escapePoints_ofChars (s : List Char) :
    escapePoints (.ofChars s) = .ofChars (escapeChars s) := by
  induction s with
  | nil => rfl
  | cons c s ih =>
    have hcons : escapePoints (.ofChars (c :: s)) =
        escapePoint (.ofChar c) ++ escapePoints (.ofChars s) := rfl
    rw [hcons, ih, escapePoint, Point.char?_ofChar, escapeChars_cons, Points.ofChars_append]

/-- An attribute with its value, unless that is empty. -/
def withValue (name value : String) : String :=
  if value.isEmpty then "" else " " ++ name ++ "=\"" ++ escape value ++ "\""

/-- The start of a span element with an identity and a class. -/
def spanStart (identity className : String) : String :=
  "<span" ++ withValue "id" identity ++ withValue "class" className ++ ">"

/-- The end of a span element. -/
def spanEnd : String := "</span>"

end Stencil.Html
