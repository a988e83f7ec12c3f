import Stencil.Content.Basic
import Stencil.Markup.Basic
import Stencil.Text.Case
import Stencil.Text.Cut

/-!
# Stock functions

Functions a user would pass to the library, each with the name it is shown by: escapes of text,
functions of placeholder names, and preparations of lines.

## Main definitions

* `Escape.stock` — the escapes by name.
* `NameFunction`, `NameFunction.apply` — functions of names, some of which fail on some names.
* `Preparation.stock` — the preparations by name.
-/

namespace Stencil

/-! ### Escapes -/

namespace Escape

/-- The escape that maps characters to texts, and leaves halves of pairs as they are. -/
def byChar (name : String) (f : Char → List Char) : Escape :=
  ⟨name, fun s => .ok (s.flatMap fun p =>
    match p.char? with
    | some c => Points.ofChars (f c)
    | none => [p])⟩

/-- The escape that always gives up. -/
def failing (name : String) (f : Fault) : Escape := ⟨name, fun _ => .error f⟩

/-- The ampersand replaced by its entity. -/
def ampersand : Escape :=
  byChar "amp" fun c => if c = '&' then "&amp;".toList else [c]

/-- Small letters of ASCII made capitals. -/
def upper : Escape := byChar "upper" fun c => [c.toUpper]

/-- Every code point twice. -/
def double : Escape := ⟨"double", fun s => .ok (s.flatMap fun p => [p, p])⟩

/-- Each text that is escaped at once in brackets. -/
def chunk : Escape := ⟨"chunk", fun s => .ok (Points.ofString "[" ++ s ++ Points.ofString "]")⟩

/-- No text at all. -/
def drop : Escape := ⟨"drop", fun _ => .ok []⟩

/-- The letter `e` replaced by a sign outside of ASCII. -/
def euro : Escape := byChar "euro" fun c => if c = 'e' then ['\u20ac'] else [c]

/-- The escapes. -/
def all : List Escape :=
  [html, ampersand, upper, double, chunk, drop, euro,
    failing "raise_value" (.raised .value "escape failed"),
    failing "raise_type" (.raised .type "escape broken")]

/-- The escape with a name. -/
def stock (name : String) : Option Escape := all.find? (·.name == name)

end Escape

/-! ### Functions of names -/

/-- A function of placeholder names. -/
inductive NameFunction where
  /-- The name itself. -/
  | identity
  /-- Small letters of ASCII made capitals. -/
  | upper
  /-- A text in front. -/
  | lead (text : String)
  /-- A text behind. -/
  | trail (text : String)
  /-- Always the same name. -/
  | const (name : String)
  /-- The names of a list; the function fails on others. -/
  | table (entries : List (String × String))
  /-- The names of a list; others stay as they are. -/
  | replace (entries : List (String × String))
  /-- Without a text in front, if it is there. -/
  | strip (text : String)
  deriving DecidableEq, Repr

/-- The last entry of a name in a list. -/
def latest? (entries : List (String × String)) (name : String) : Option String :=
  entries.reverse.lookup name

/-- What a function makes of a name. -/
def NameFunction.apply (f : NameFunction) (name : String) : Except Fault String :=
  match f with
  | identity => .ok name
  | upper => .ok (Text.capitalsAscii name)
  | lead text => .ok (text ++ name)
  | trail text => .ok (name ++ text)
  | const other => .ok other
  | table entries =>
    match latest? entries name with
    | some new => .ok new
    | none => .error (.noSuchName name)
  | replace entries => .ok ((latest? entries name).getD name)
  | strip text =>
    if text.toList.isPrefixOf name.toList then
      .ok (String.ofList (name.toList.drop text.length))
    else .ok name

/-! ### Preparations -/

/-- The preparations by name. -/
def Preparation.stock (name : String) : Option Preparation :=
  [Preparation.trim, ⟨"upper", Text.capitalsAscii⟩].find? (·.name == name)

end Stencil
