import Stencil.Format.Directive
import Stencil.Format.Numeral
import Stencil.Number.Limit
import Stencil.Value.Text

/-!
# Formatting values

A format is filled with values from left to right.  A conversion makes of a value a sign, the mark
of a base and a body, which are laid out in the width of the directive.  Formats and what they are
filled with are rows of code points, in which there may be halves of pairs.

## Main definitions

* `FormatError` — why values do not fill a format.
* `Field` — a converted value before it is laid out.
* `convert` — the conversion of a value.
* `render` — a format filled with values.
-/

namespace Stencil

/-- Why values do not fill a format. -/
inductive FormatError where
  /-- There are fewer values than directives. -/
  | tooFewValues
  /-- There are more values than directives. -/
  | tooManyValues
  /-- A directive breaks off. -/
  | incomplete
  /-- A directive asks for a value by a key. -/
  | wantsMapping
  /-- The value for a star is no integer. -/
  | starWantsInteger
  /-- The value for a star is too large; `width` tells a width from a precision. -/
  | starTooLarge (width : Bool)
  /-- A width is too large. -/
  | widthTooLarge
  /-- A precision is too large. -/
  | precisionTooLarge
  /-- A conversion to an integer got a value of a type that has no integer part. -/
  | wantsReal (conversion : Char) (typeName : String)
  /-- A conversion of an integer got a value of another type. -/
  | wantsInteger (conversion : Char) (typeName : String)
  /-- A conversion of a double got a value of a type that is no number. -/
  | wantsDouble (typeName : String)
  /-- A conversion of a character got another value. -/
  | wantsCharacter
  /-- The undefined number has no integer part. -/
  | undefinedInteger
  /-- An infinity has no integer part. -/
  | unboundedInteger
  /-- An integer is too large for a double. -/
  | tooLargeForDouble
  /-- There is no character with that code. -/
  | noSuchCharacter
  /-- There is no such conversion. -/
  | unknownConversion (conversion : Point) (position : Nat)
  /-- An integer has more digits than are written. -/
  | tooManyDigits (most : Nat)
  deriving DecidableEq, Repr

namespace FormatError

/-- Whether a number was out of range; all other causes are a fault of the format or its values. -/
def isOverflow : FormatError → Bool
  | starTooLarge _ | unboundedInteger | tooLargeForDouble | noSuchCharacter => true
  | _ => false

/-- The cause in words. -/
def message : FormatError → String
  | tooFewValues => "not enough arguments for format string"
  | tooManyValues => "not all arguments converted during string formatting"
  | incomplete => "incomplete format"
  | wantsMapping => "format requires a mapping"
  | starWantsInteger => "* wants int"
  | starTooLarge width =>
    if width then "Python int too large to convert to C ssize_t"
    else "Python int too large to convert to C int"
  | widthTooLarge => "width too big"
  | precisionTooLarge => "precision too big"
  | wantsReal c t => s!"%{c} format: a real number is required, not {t}"
  | wantsInteger c t => s!"%{c} format: an integer is required, not {t}"
  | wantsDouble t => s!"must be real number, not {t}"
  | wantsCharacter => "%c requires int or char"
  | undefinedInteger => "cannot convert float NaN to integer"
  | unboundedInteger => "cannot convert float infinity to integer"
  | tooLargeForDouble => "int too large to convert to float"
  | noSuchCharacter => "%c arg not in range(0x110000)"
  | unknownConversion p position =>
    let shown := if 31 ≤ p.val ∧ p.val < 127 then Char.ofNat p.val else '?'
    s!"unsupported format character '{shown}' (0x{String.ofList (Text.hex 1 p.val)}) at index {position}"
  | tooManyDigits most => DigitLimit.message most ""

end FormatError

namespace Format

/-- A converted value. -/
structure Field where
  /-- Its sign and the mark of its base, if it shows them. -/
  lead : Points
  /-- Its digits or text. -/
  body : Points
  /-- Whether it may be padded with zeros. -/
  numeric : Bool
  deriving DecidableEq, Repr, Inhabited

/-- The field laid out in a width: zeros go between sign and digits, blanks around both. -/
def Field.layOut (f : Field) (flags : Flags) (width : Nat) : Points :=
  let text := f.lead ++ f.body
  let missing := width - text.length
  if flags.left then text ++ List.replicate missing (' ' : Point)
  else if flags.zero && f.numeric then f.lead ++ List.replicate missing ('0' : Point) ++ f.body
  else List.replicate missing (' ' : Point) ++ text

/-- The sign of a number: a minus sign, or what the flags ask for. -/
def signText (flags : Flags) (negative : Bool) : List Char :=
  if negative then ['-'] else if flags.plus then ['+'] else if flags.blank then [' '] else []

/-- The integer that a value is cut down to. -/
def integerPart (conversion : Char) (v : Value) : Except FormatError Int :=
  match v with
  | .float x =>
    match x.truncate? with
    | some n => .ok n
    | none => if x = .nan then .error .undefinedInteger else .error .unboundedInteger
  | _ =>
    match v.toInt? with
    | some n => .ok n
    | none => .error (.wantsReal conversion v.typeName)

/-- The integer that a value is. -/
def integerOf (conversion : Char) (v : Value) : Except FormatError Int :=
  match v.toInt? with
  | some n => .ok n
  | none => .error (.wantsInteger conversion v.typeName)

/-- The double that a value is. -/
def doubleOf (v : Value) : Except FormatError Double :=
  match v with
  | .float x => .ok x
  | _ =>
    match v.toInt? with
    | some n =>
      match Double.ofInt n with
      | .finite s m e => .ok (.finite s m e)
      | _ => .error .tooLargeForDouble
    | none => .error (.wantsDouble v.typeName)

/-- The text as capitals, if asked for. -/
def cased (capital : Bool) (s : List Char) : List Char :=
  if capital then s.map Char.toUpper else s

/-- A number as a field, by its sign, the mark of its base and its digits. -/
def numberField (flags : Flags) (negative : Bool) (mark digits : List Char) : Field :=
  ⟨.ofChars (signText flags negative ++ mark), .ofChars digits, true⟩

/-- An integer as a field, in a base with a mark. -/
def integerField (flags : Flags) (base : Nat) (mark : List Char) (capital : Bool)
    (precision : Option Nat) (n : Int) : Field :=
  numberField flags (decide (n < 0)) (if flags.alternate then mark else [])
    (cased capital (integerDigits base (precision.getD 1) n.natAbs))

/-- A double as a field; `form` gives the text of a magnitude. -/
def doubleField (flags : Flags) (form : Decimal → List Char) (capital : Bool) (x : Double) :
    Field :=
  let (negative, digits) : Bool × List Char := match x with
    | .nan => (false, ['n', 'a', 'n'])
    | .infinity negative => (negative, ['i', 'n', 'f'])
    | .finite negative m e => (negative, form (Double.exact m e))
  numberField flags negative [] (cased capital digits)

/-- A text as a field. -/
def textField (s : Points) : Field := ⟨[], s, false⟩

/-- The code point with a number. -/
def pointOf (code : Int) : Except FormatError Point :=
  if h : 0 ≤ code ∧ code < 0x110000 then .ok ⟨code.toNat, by omega⟩ else .error .noSuchCharacter

/-- A field with integers of at most so many digits, unless these are too many. -/
def limited [DigitLimit] (digits : Nat) (field : Field) : Except FormatError Field :=
  match DigitLimit.exceeded? digits with
  | some most => .error (.tooManyDigits most)
  | none => .ok field

/-- The conversion of a value; `index` is the position of its letter in the format. -/
def convert [DigitLimit] (flags : Flags) (precision : Option Nat) (conversion : Point)
    (index : Nat) (v : Value) : Except FormatError Field :=
  let cut := fun (s : Points) => textField (s.take (precision.getD s.length))
  let places := precision.getD 6
  let unknown : Except FormatError Field := .error (.unknownConversion conversion index)
  match conversion.char? with
  | none => unknown
  | some letter =>
    match letter with
    | 's' => limited v.shownDigits (cut v.display)
    | 'r' => limited v.digits (cut v.literal)
    | 'a' => limited v.digits (cut (Text.escapedAscii v.literal))
    | 'd' | 'i' | 'u' =>
      match integerPart letter v with
      | .ok n => limited (Value.digitCount n) (integerField flags 10 [] false precision n)
      | .error cause => .error cause
    | 'o' => (integerOf letter v).map (integerField flags 8 ['0', 'o'] false precision)
    | 'x' => (integerOf letter v).map (integerField flags 16 ['0', 'x'] false precision)
    | 'X' => (integerOf letter v).map (integerField flags 16 ['0', 'X'] true precision)
    | 'f' | 'F' =>
      (doubleOf v).map (doubleField flags (fixedText flags.alternate places) (letter = 'F'))
    | 'e' | 'E' =>
      (doubleOf v).map (doubleField flags (scientificText flags.alternate places) (letter = 'E'))
    | 'g' | 'G' =>
      (doubleOf v).map (doubleField flags (generalText flags.alternate places) (letter = 'G'))
    | 'c' =>
      match v, v.toInt? with
      | .str [p], _ => .ok (textField [p])
      | .str _, _ => .error .wantsCharacter
      | _, some code => (pointOf code).map fun p => textField [p]
      | _, none => .error .wantsCharacter
    | _ => unknown

/-- The largest width. -/
def widthLimit : Nat := Nat.pow 2 63

/-- The largest precision. -/
def precisionLimit : Nat := Nat.pow 2 31

/-- The next value, and those after it. -/
def next (values : List Value) : Except FormatError (Value × List Value) :=
  match values with
  | [] => .error .tooFewValues
  | v :: rest => .ok (v, rest)

/-- The number for a star, and the values after it. -/
def nextNumber (isWidth : Bool) (values : List Value) :
    Except FormatError (Int × List Value) := do
  let (v, rest) ← next values
  match v.toInt? with
  | none => .error .starWantsInteger
  | some n =>
    let limit : Int := if isWidth then widthLimit else precisionLimit
    if n < -limit ∨ limit ≤ n then .error (.starTooLarge isWidth) else .ok (n, rest)

/-- The width of a directive and its flags: a negative one from a star pads on the right. -/
def widthOf (flags : Flags) (m : Measure) (values : List Value) :
    Except FormatError (Flags × Nat × List Value) :=
  match m with
  | .absent => .ok (flags, 0, values)
  | .fixed n => if widthLimit ≤ n then .error .widthTooLarge else .ok (flags, n, values)
  | .star => do
    let (n, rest) ← nextNumber true values
    .ok (if n < 0 then { flags with left := true } else flags, n.natAbs, rest)

/-- The precision of a directive: a negative one from a star counts as zero. -/
def precisionOf (m : Measure) (values : List Value) :
    Except FormatError (Option Nat × List Value) :=
  match m with
  | .absent => .ok (none, values)
  | .fixed n => if precisionLimit ≤ n then .error .precisionTooLarge else .ok (some n, values)
  | .star => do
    let (n, rest) ← nextNumber false values
    .ok (some n.toNat, rest)

/-- A directive filled from the values, and the values after those it took. -/
def renderDirective [DigitLimit] (d : Directive) (values : List Value) :
    Except FormatError (Points × List Value) := do
  if d.keyed then .error .wantsMapping
  else
    let (flags, width, values) ← widthOf d.flags d.width values
    let (precision, values) ← precisionOf d.precision values
    match d.conversion with
    | none => .error .incomplete
    | some (p, index) =>
      let (v, rest) ← next values
      let field ← convert flags precision p index v
      .ok (field.layOut flags width, rest)

/-- The pieces filled from the values. -/
def renderPieces [DigitLimit] (values : List Value) : List Piece → Except FormatError Points
  | [] => if values.isEmpty then .ok [] else .error .tooManyValues
  | .text s :: pieces => do
    let rest ← renderPieces values pieces
    .ok (s ++ rest)
  | .directive d :: pieces => do
    let (s, values) ← renderDirective d values
    let rest ← renderPieces values pieces
    .ok (s ++ rest)

/-- The text of a format filled with values. -/
def render [DigitLimit] (format : Points) (values : List Value) : Except FormatError Points :=
  renderPieces values (Piece.ofFormat format)

end Format

end Stencil
