import Stencil.Number.Double
import Stencil.Text.Point

/-!
# Data values

The data that fills a template is a tree of dynamic values: scalars, sequences, maps and records.
Keys of a map are values too; a map keeps its entries in the order in which their keys came first.

## Main definitions

* `Value` — the data values.
* `Value.typeName` — the name of a value's type.
* `Value.equals` — when two values are the same key.
* `Value.ofEntries`, `Value.lookup?` — building a map and looking a key up.
* `Value.isTrue` — whether a value counts as true.
* `DataReader` — what reads a value from a file.
-/

namespace Stencil

/-- How the values of a record type are printed. -/
inductive RecordStyle where
  /-- With the names of its fields. -/
  | shown
  /-- A tuple whose members have names, printed with them. -/
  | named
  /-- By the name of its type alone. -/
  | plain
  deriving DecidableEq, Repr, Inhabited

/-- A data value. -/
inductive Value where
  /-- No value. -/
  | none
  /-- A truth value. -/
  | bool (b : Bool)
  /-- An integer of any size. -/
  | int (n : Int)
  /-- A double-precision number. -/
  | float (x : Double)
  /-- A text. -/
  | str (s : Points)
  /-- A byte string, which may be one that can change. -/
  | bytes (b : Bytes) (mutable : Bool)
  /-- A sequence that may grow. -/
  | list (items : List Value)
  /-- A sequence of fixed length. -/
  | tuple (items : List Value)
  /-- A map from keys to values. -/
  | map (entries : List (Value × Value))
  /-- The integers from `start` on in steps of `step` before `stop`. -/
  | range (start stop step : Int)
  /-- A record of a type with a name. -/
  | record (style : RecordStyle) (type : String) (fields : List (String × Value))
  /-- A record whose one field `kw` is a map of named entries. -/
  | box (entries : List (String × Value))
  /-- A function object of a type. -/
  | callable (type : String)
  /-- An object of a type, without parts. -/
  | sealed (type : String)
  /-- A type. -/
  | metatype (name : String)
  /-- A member of an enumeration type. -/
  | member (type name : String) (value : Value)
  deriving Repr, Inhabited

namespace Value

/-- The name of the value's type. -/
def typeName : Value → String
  | none => "NoneType"
  | bool _ => "bool"
  | int _ => "int"
  | float _ => "float"
  | str _ => "str"
  | bytes _ mutable => if mutable then "bytearray" else "bytes"
  | list _ => "list"
  | tuple _ => "tuple"
  | map _ => "dict"
  | range _ _ _ => "range"
  | record _ type _ => type
  | box _ => "Box"
  | callable type => type
  | sealed type => type
  | metatype _ => "type"
  | member type _ _ => type

/-- Whether there is a value. -/
def isSome : Value → Bool
  | none => false
  | _ => true

/-- The number that a truth value or an integer is. -/
def toInt? : Value → Option Int
  | bool b => some (if b then 1 else 0)
  | int n => some n
  | _ => Option.none

/-- The number of members of a range. -/
def rangeSize (start stop step : Int) : Nat :=
  if 0 < step then ((stop - start + step - 1) / step).toNat
  else if step < 0 then ((start - stop - step - 1) / (-step)).toNat
  else 0

/-- Whether the value counts as true: not an empty one, and not a zero. -/
def isTrue : Value → Bool
  | none => false
  | bool b => b
  | int n => n != 0
  | float x => !x.equalsInt 0
  | str s => !s.isEmpty
  | bytes b _ => !b.isEmpty
  | list items => !items.isEmpty
  | tuple items => !items.isEmpty
  | map entries => !entries.isEmpty
  | range start stop step => rangeSize start stop step != 0
  | record .named _ fields => !fields.isEmpty
  | _ => true

/-! ### Keys -/

mutual

/-- Whether two values are the same key.  Numbers are compared by what they count, whatever their
types; the undefined number is no key's equal. -/
def equals : Value → Value → Bool
  | none, none => true
  | bool a, bool b => a == b
  | bool a, int n => (if a then 1 else 0) == n
  | int n, bool a => (if a then 1 else 0) == n
  | int m, int n => m == n
  | float x, float y => x.equals y
  | float x, int n => x.equalsInt n
  | int n, float x => x.equalsInt n
  | float x, bool a => x.equalsInt (if a then 1 else 0)
  | bool a, float x => x.equalsInt (if a then 1 else 0)
  | str s, str t => s == t
  | bytes a _, bytes b _ => a == b
  | tuple xs, tuple ys => equalsAll xs ys
  | range a b c, range d e f => a == d && b == e && c == f
  | metatype s, metatype t => s == t
  | member s m _, member t n _ => s == t && m == n
  | _, _ => false

/-- Whether two lists have the same keys one by one. -/
def equalsAll : List Value → List Value → Bool
  | [], [] => true
  | x :: xs, y :: ys => x.equals y && equalsAll xs ys
  | _, _ => false

end

/-- The value of a key in the entries of a map. -/
def lookup? (entries : List (Value × Value)) (key : Value) : Option Value :=
  (entries.find? fun e => e.1.equals key).map (·.2)

/-- The value of a textual key in the entries of a map. -/
def lookupName? (entries : List (Value × Value)) (name : String) : Option Value :=
  lookup? entries (.str name)

/-- The entries with one more: a key that is there keeps its place and takes the new value. -/
def insertEntry (entries : List (Value × Value)) (key value : Value) : List (Value × Value) :=
  if entries.any fun e => e.1.equals key then
    entries.map fun e => if e.1.equals key then (e.1, value) else e
  else entries ++ [(key, value)]

/-- The map of the given entries, the last of equal keys counting. -/
def ofEntries (entries : List (Value × Value)) : Value :=
  .map (entries.foldl (fun m e => insertEntry m e.1 e.2) [])

end Value

/-- What reads a value from the text of a file, or says in words why it cannot. -/
abbrev DataReader := String → Except String Value

end Stencil
