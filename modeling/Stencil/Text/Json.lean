import Stencil.Text.Bytes

/-!
# Texts in JSON

A text is written between quotation marks, with escapes for the quotation mark, the backslash and
the control characters.  All other characters stand for themselves.

## Main definitions

* `jsonText` — a text in JSON.
* `jsonList`, `jsonObject` — a list and an object by the texts of their members.
-/

namespace Stencil.Text

/-- The escapes of single characters. -/
def jsonEscapes : List (Char × Char) :=
  [('"', '"'), ('\\', '\\'), ('\n', 'n'), ('\r', 'r'), ('\t', 't'), ('\x08', 'b'), ('\x0c', 'f')]

/-- A character of a text in JSON. -/
def jsonChar (c : Char) : List Char :=
  match jsonEscapes.lookup c with
  | some letter => ['\\', letter]
  | none => if c.toNat < 32 then '\\' :: 'u' :: hex 4 c.toNat else [c]

/-- A text in JSON. -/
def jsonText (s : String) : String := "\"" ++ String.ofList (s.toList.flatMap jsonChar) ++ "\""

/-- A list by the texts of its members. -/
def jsonList (parts : List String) : String := "[" ++ ", ".intercalate parts ++ "]"

/-- An object by its keys and the texts of their values. -/
def jsonObject (members : List (String × String)) : String :=
  "\x7b" ++ ", ".intercalate (members.map fun (k, v) => jsonText k ++ ": " ++ v) ++ "\x7d"

end Stencil.Text
