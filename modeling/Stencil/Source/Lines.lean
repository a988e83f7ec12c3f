import Stencil.Codec

/-!
# Lines of a source

A source is read line by line.  A line ends in a line feed; it is given without it, and without one
carriage return before it.  Reading may stop at bytes that are no text; the lines before them are
there nevertheless.

## Main definitions

* `splitLines` — the lines of a text.
* `Source` — what can be parsed.
* `Lines`, `Source.read` — the lines of a source, and what stopped their reading.
-/

namespace Stencil

/-- The lines of a text; a line feed at the end starts no new line. -/
def splitLines : List Char → List (List Char)
  | [] => []
  | '\n' :: s => [] :: splitLines s
  | c :: s =>
    match splitLines s with
    | [] => [[c]]
    | line :: rest => (c :: line) :: rest

/-- The text without a character, if it ends in it. -/
def dropFinal (c : Char) (s : List Char) : List Char :=
  if s.getLast? = some c then s.dropLast else s

/-- The line without its end: a line feed, and a carriage return before it. -/
def chomp (s : List Char) : List Char := dropFinal '\r' (dropFinal '\n' s)

/-- The lines of a source as far as it could be read. -/
structure Lines where
  /-- The lines. -/
  lines : List String
  /-- What stopped their reading. -/
  fault : Option Fault

/-- The lines of a text without their ends. -/
def Lines.ofText (s : List Char) : Lines :=
  ⟨(splitLines s).map fun l => String.ofList (chomp l), none⟩

/-- What can be parsed. -/
inductive Source where
  /-- A text. -/
  | text (s : String)
  /-- Bytes. -/
  | bytes (b : Bytes)
  /-- Lines, with their ends or without. -/
  | lines (ls : List String)

/-- The lines of a source, the bytes of which are in an encoding. -/
def Source.read (encoding : Encoding) : Source → Lines
  | text s => .ofText s.toList
  | bytes b =>
    match encoding.decode b with
    | .ok s => .ofText s.toList
    | .error f => ⟨[], some f⟩
  | lines ls => ⟨ls.map fun l => String.ofList (chomp l.toList), none⟩

end Stencil
