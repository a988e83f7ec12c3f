import Stencil.Value.Basic

/-!
# Views of structured values

A path walks through a value by its view: a sequence has items by position, a map entries by name,
and a record fields by name.  Scalars have no view.  Which values have which view is said by
adapters; those that a user adds are asked before the standard ones.

## Main definitions

* `View` — a value seen as a sequence, a map or a record.
* `View.index`, `View.field` — the part at a position or with a name.
* `Adapter` — the view of some values.
* `Value.view?` — the view of a value by a list of adapters.
* `Value.kindName` — what a value is, in words.
-/

namespace Stencil

/-- A structured value as a path sees it. -/
inductive View where
  /-- A sequence of `size` items. -/
  | sequence (size : Nat) (item : Nat → Value)
  /-- A map with named entries. -/
  | mapping (entry : String → Option Value)
  /-- A record with named fields. -/
  | record (field : String → Option Value)

namespace View

/-- The shape of the view in words. -/
def kind : View → String
  | sequence _ _ => "sequence"
  | mapping _ => "map"
  | record _ => "record"

/-- Whether the view is a sequence. -/
def isSequence : View → Bool
  | sequence _ _ => true
  | _ => false

/-- The item at a position, a negative one counting from the end; no value if there is none. -/
def index (v : View) (i : Int) : Value :=
  match v with
  | sequence size item =>
    let i := if i < 0 then i + size else i
    if i < 0 ∨ (size : Int) ≤ i then .none else item i.toNat
  | _ => .none

/-- The entry or field of a name; no value if there is none. -/
def field (v : View) (name : String) : Value :=
  match v with
  | mapping entry => (entry name).getD .none
  | record field => (field name).getD .none
  | sequence _ _ => .none

end View

/-- A rule that gives some values a view. -/
abbrev Adapter := Value → Option View

namespace Adapter

/-- The view of a list of items. -/
def ofItems (items : List Value) : View := .sequence items.length fun i => items.getD i .none

/-- The value of the first of the pairs with a name. -/
def named? (pairs : List (String × Value)) (name : String) : Option Value :=
  (pairs.find? (·.1 == name)).map (·.2)

/-- The standard views: records and maps by name, lists, tuples and ranges by position. -/
def standard : Adapter
  | .record _ _ fields => some (.record (named? fields))
  | .box entries =>
    some (.record (named? [("kw", .map (entries.map fun e => (.str e.1, e.2)))]))
  | .map entries => some (.mapping (Value.lookupName? entries))
  | .list items => some (ofItems items)
  | .tuple items => some (ofItems items)
  | .range start stop step =>
    some (.sequence (Value.rangeSize start stop step) fun i => .int (start + i * step))
  | _ => none

/-- Boxes as maps of their entries. -/
def boxes : Adapter
  | .box entries => some (.mapping (named? entries))
  | _ => none

/-- Texts as sequences of their characters. -/
def characters : Adapter
  | .str s => some (ofItems (s.map fun p => .str [p]))
  | _ => none

end Adapter

namespace Value

/-- The view of a value: by the first of the added adapters that has one, or the standard one. -/
def view? (added : List Adapter) (v : Value) : Option View :=
  match added.findSome? fun adapter => adapter v with
  | some view => some view
  | Option.none => Adapter.standard v

@[simp] theorem view?_nil (v : Value) : v.view? [] = Adapter.standard v := rfl

/-- What a value is: its type's name, after its shape if it has one. -/
def kindName (added : List Adapter) (v : Value) : String :=
  match v.view? added with
  | some view => s!"{view.kind} ({v.typeName})"
  | Option.none => v.typeName

end Value

end Stencil
