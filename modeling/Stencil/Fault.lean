import Stencil.Format.Render
import Stencil.Text.Charset
import Stencil.Value.Whole

/-!
# Faults

A fault is what stops a computation other than by an error of the library's own: a sink or a
caller's function that gives up, a text that an encoding cannot carry, or a use that is not allowed.
Faults fall into kinds; emission turns those of a sink that refuses data into results and lets the
others through.

## Main definitions

* `Fault` — the faults, by cause.
* `Fault.kind` — the kind of a fault.
* `Fault.message` — the cause in words.
* `Fault.isRefusal` — whether a fault is a sink's refusal of data.
-/

namespace Stencil

/-- The kinds of faults. -/
inductive Fault.Kind where
  /-- A failure of the system. -/
  | system
  /-- A value that is not allowed. -/
  | value
  /-- A type that is not allowed. -/
  | type
  /-- A key that is missing. -/
  | key
  /-- A position that is out of range. -/
  | index
  /-- A state that should not be. -/
  | state
  /-- A number that is out of range. -/
  | overflow
  /-- A name that is not known. -/
  | lookup
  /-- A text that an encoding cannot carry. -/
  | encoding
  /-- Bytes that are no text. -/
  | decoding
  /-- A pattern that cannot be read. -/
  | pattern
  deriving DecidableEq, Repr, Inhabited

/-- What stops a computation. -/
inductive Fault where
  /-- A function of the caller gave up with a message. -/
  | raised (kind : Fault.Kind) (message : String)
  /-- A sink took `count` of `size` bytes and then none. -/
  | shortWrite (count : Int) (size : Nat)
  /-- A sink that escapes could not write on; the message is that of its target's failure. -/
  | relayed (message : String)
  /-- There is no encoding with that name. -/
  | unknownEncoding (name : String)
  /-- A text has characters that its encoding lacks. -/
  | unencodable (charset : Charset) (cause : Unencodable)
  /-- Bytes are no text of their encoding. -/
  | undecodable (charset : Charset) (cause : Undecodable)
  /-- An integer has more digits than are written. -/
  | tooManyDigits (most : Nat)
  /-- A value is no whole number. -/
  | notWhole (cause : Value.WholeError)
  /-- A number did not fit a format directive. -/
  | format (cause : FormatError)
  /-- A placeholder has no name. -/
  | emptyName
  /-- An inline marker is empty. -/
  | emptyMarker
  /-- The separator of nesting paths is empty. -/
  | emptyPathSeparator
  /-- The separator of a data path is empty. -/
  | emptySeparator
  /-- Content was bound to a slot that is not there. -/
  | noSuchSlot
  /-- A slot was read that is not there. -/
  | slotOutOfRange
  /-- A number is too large to be that of a slot. -/
  | slotTooLarge
  /-- A template without placeholders has several fragments. -/
  | scattered (template : String) (fragments : Nat)
  /-- A pattern has no group of that name or number. -/
  | noSuchGroup
  /-- The name of a sub-template took no part in the match. -/
  | nameWithoutText
  /-- A name map has no entry for a name. -/
  | noSuchName (name : String)
  /-- Keys that are not all texts cannot be listed. -/
  | keyNotText (position : Nat) (typeName : String)
  /-- Keys of two types have no order. -/
  | keysUnordered (left right : String)
  /-- A value of that type cannot hold an index map. -/
  | notAnIndexMap (typeName : String)
  /-- A value of that type holds no slots. -/
  | noSlots (typeName : String)
  /-- A pattern cannot be read. -/
  | badPattern
  /-- A pattern repeats something too often. -/
  | repetitionTooLarge
  deriving DecidableEq, Repr

namespace Fault

/-- The kind of a fault. -/
def kind : Fault → Kind
  | raised kind _ => kind
  | shortWrite _ _ | relayed _ => .system
  | unknownEncoding _ => .lookup
  | unencodable _ _ => .encoding
  | undecodable _ _ => .decoding
  | tooManyDigits _ => .value
  | notWhole .unbounded => .overflow
  | notWhole (.notANumber _) => .type
  | notWhole _ => .value
  | format _ => .overflow
  | emptyName | emptyMarker | emptyPathSeparator | emptySeparator => .value
  | noSuchSlot | slotOutOfRange | slotTooLarge | noSuchGroup => .index
  | scattered _ _ => .state
  | nameWithoutText | keyNotText _ _ | keysUnordered _ _ | notAnIndexMap _ | noSlots _ => .type
  | noSuchName _ => .key
  | badPattern => .pattern
  | repetitionTooLarge => .overflow

/-- The cause in words. -/
def message : Fault → String
  | raised .key m => Text.quoted m
  | raised _ m => m
  | shortWrite count size => s!"short write: {Value.intText count} of {size} bytes"
  | relayed m => m
  | unknownEncoding name => s!"unknown encoding: {name}"
  | unencodable charset cause => cause.message charset
  | undecodable charset cause => cause.message charset
  | tooManyDigits most => DigitLimit.message most ""
  | notWhole .undefined => "cannot convert float NaN to integer"
  | notWhole .unbounded => "cannot convert float infinity to integer"
  | notWhole (.notANumeral literal) => s!"invalid literal for int() with base 10: {literal}"
  | notWhole (.notANumber typeName) =>
    s!"int() argument must be a string, a bytes-like object or a real number, not '{typeName}'"
  | notWhole (.tooManyDigits most digits) =>
    DigitLimit.message most s!": value has {digits} digits"
  | format cause => cause.message
  | emptyName => "placeholder name must not be empty"
  | emptyMarker => "inline placeholder markers must not be empty"
  | emptyPathSeparator => "path separator must not be empty"
  | emptySeparator => "empty separator"
  | noSuchSlot => "list assignment index out of range"
  | slotOutOfRange => "list index out of range"
  | slotTooLarge => "cannot fit 'int' into an index-sized integer"
  | scattered template fragments =>
    s!"template '{template}' without placeholders has {fragments} fragments"
  | noSuchGroup => "no such group"
  | nameWithoutText => "argument of type 'NoneType' is not iterable"
  | noSuchName name => Text.quoted name
  | keyNotText position typeName =>
    s!"sequence item {position}: expected str instance, {typeName} found"
  | keysUnordered left right =>
    s!"'<' not supported between instances of '{left}' and '{right}'"
  | notAnIndexMap typeName => s!"index map must be a dataclass instance, got {typeName}"
  | noSlots typeName => s!"'{typeName}' object is not iterable"
  | badPattern => "<re error>"
  | repetitionTooLarge => "the repetition number is too large"

/-- Whether a fault of this kind is about a value that is not allowed, a text or bytes that do not
fit an encoding included. -/
def Kind.isOfValue : Kind → Bool
  | value | encoding | decoding => true
  | _ => false

/-- Whether a fault of this kind is a sink's refusal of data: a failure of the system or a value
that is not allowed. -/
def Kind.isRefusal (k : Kind) : Bool := k == .system || k.isOfValue

/-- Whether the fault is a sink's refusal of data. -/
def isRefusal (f : Fault) : Bool := f.kind.isRefusal

end Fault

/-! ### Computations in steps -/

section Steps

variable {ε α β : Type} {x : Except ε α} {next : α → Except ε β}

/-- After a step with a result the computation goes on from it. -/
theorem bind_of_ok {a : α} (h : x = .ok a) : (x >>= next) = next a := by
  rw [h]
  rfl

/-- Two steps have a result if both of them have one. -/
theorem bind_eq_ok_iff {b : β} : (x >>= next) = .ok b ↔ ∃ a, x = .ok a ∧ next a = .ok b := by
  constructor
  · intro h
    cases x with
    | error e => cases h
    | ok a => exact ⟨a, rfl, h⟩
  · rintro ⟨a, ha, hb⟩
    rw [bind_of_ok ha, hb]

/-- Two steps end in an error if one of them does. -/
theorem bind_eq_error_iff {e : ε} :
    (x >>= next) = .error e ↔ x = .error e ∨ ∃ a, x = .ok a ∧ next a = .error e := by
  constructor
  · intro h
    cases x with
    | error e' =>
      cases h
      exact .inl rfl
    | ok a => exact .inr ⟨a, rfl, h⟩
  · rintro (rfl | ⟨a, rfl, h⟩)
    · rfl
    · exact h

end Steps

end Stencil
