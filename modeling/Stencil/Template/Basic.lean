import Stencil.Codec

/-!
# Templates

A template is a row of static fragments with a slot before, between and after them: slot `i` comes
before fragment `i`, and the last slot after the last fragment.  A slot may carry the name of a
placeholder, and a name may be carried by several slots.  The slots of each name are kept in a table
in the order in which the names came first.  A named slot may have a wrap, which is applied to
content when it is bound there; what wraps are is left open.

Templates are built from left to right.  Static bytes join the last fragment, unless a placeholder
stands after it; so two placeholders always have a fragment between them, which may be empty.

## Main definitions

* `Template` — the templates.
* `Template.nameAt`, `Template.wrapAt`, `Template.slots?` — what a slot or a name has.
* `Template.atIndex` — what is asked for by any index.
* `Template.addStatic`, `Template.addText`, `Template.addPlaceholder` — building.
* `Template.setWrap` — the wrap of all slots of a name.
* `Template.staticBytes` — the content of a template without placeholders.
-/

namespace Stencil

/-- The slots of names, in the order in which the names came first. -/
abbrev SlotTable := List (String × List Nat)

namespace SlotTable

/-- The table with a slot more for a name. -/
def push (table : SlotTable) (name : String) (slot : Nat) : SlotTable :=
  match table with
  | [] => [(name, [slot])]
  | (n, slots) :: rest =>
    if n = name then (n, slots ++ [slot]) :: rest else (n, slots) :: push rest name slot

/-- The table with the given slots for a name: in its place if it has one, otherwise at the end. -/
def set (table : SlotTable) (name : String) (slots : List Nat) : SlotTable :=
  match table with
  | [] => [(name, slots)]
  | (n, old) :: rest => if n = name then (n, slots) :: rest else (n, old) :: set rest name slots

/-- The table without a name. -/
def erase (table : SlotTable) (name : String) : SlotTable := table.filter (·.1 ≠ name)

/-- The names of the table. -/
def names (table : SlotTable) : List String := table.map (·.1)

end SlotTable

/-- A template, with wraps of type `ω`. -/
structure Template (ω : Type) where
  /-- The template's name. -/
  name : String
  /-- The static fragments. -/
  fragments : List Bytes
  /-- The names at the slots; slots beyond the list have none. -/
  slotNames : List (Option String)
  /-- The slots of the names. -/
  table : SlotTable
  /-- The wraps at the slots that have one. -/
  wraps : List (Nat × ω)
  deriving Repr, Inhabited

namespace Template

variable {ω : Type}

/-- The template with nothing in it. -/
def blank (name : String) : Template ω := ⟨name, [], [], [], []⟩

/-! ### Inspection -/

/-- The number of slots, one more than that of the fragments. -/
def slotCount (t : Template ω) : Nat := t.fragments.length + 1

/-- The name at a slot. -/
def nameAt (t : Template ω) (slot : Nat) : Option String := t.slotNames[slot]?.join

/-- The wrap at a slot. -/
def wrapAt (t : Template ω) (slot : Nat) : Option ω := t.wraps.lookup slot

/-- What is at an index, which may be any integer: nothing at a negative one. -/
def atIndex {α : Type} (at? : Nat → Option α) : Int → Option α
  | .ofNat i => at? i
  | .negSucc _ => none

/-- The fragment at an index. -/
def fragmentAt (t : Template ω) : Int → Option Bytes := atIndex fun i => t.fragments[i]?

/-- The name at the slot with an index. -/
def placeholderAt (t : Template ω) : Int → Option String := atIndex t.nameAt

/-- The wrap at the slot with an index. -/
def wrapAtIndex (t : Template ω) : Int → Option ω := atIndex t.wrapAt

/-- The names of the placeholders, in the order in which they came first. -/
def names (t : Template ω) : List String := t.table.names

/-- Whether the table has a name. -/
def hasName (t : Template ω) (name : String) : Bool := (t.table.lookup name).isSome

/-- The slots of a name that has any. -/
def slots? (t : Template ω) (name : String) : Option (List Nat) :=
  match t.table.lookup name with
  | some (s :: rest) => some (s :: rest)
  | _ => none

/-- The template without the entry of a name, if that has no slots left. -/
def dropEmptied (t : Template ω) (name : String) : Template ω :=
  if t.table.lookup name = some [] then { t with table := t.table.erase name } else t

/-- Whether no name is in the table. -/
def isStatic (t : Template ω) : Bool := t.table.isEmpty

/-- The whole content of a template without placeholders; nothing if it has some.  Such a template
has one fragment at the most. -/
def staticBytes (t : Template ω) : Except Fault (Option Bytes) :=
  if !t.isStatic then .ok none
  else
    match t.fragments with
    | [] => .ok (some [])
    | [f] => .ok (some f)
    | fs => .error (.scattered t.name fs.length)

/-- The template in one line. -/
def describe (t : Template ω) : String :=
  let names := Value.literal (.list (t.names.map fun n : String => .str n))
  s!"Template({Text.quoted t.name}, fragments={t.fragments.length}, placeholders={names})"

/-! ### Building -/

/-- The fragments with bytes added to the last of them. -/
def appendToLast (data : Bytes) : List Bytes → List Bytes
  | [] => [data]
  | [f] => [f ++ data]
  | f :: g :: rest => f :: appendToLast data (g :: rest)

/-- Whether the template ends in a placeholder. -/
def endsNamed (t : Template ω) : Bool := (t.nameAt t.fragments.length).isSome

/-- The template with static bytes added: after a placeholder as a new fragment, even if there are
none, and otherwise to the last fragment. -/
def addStatic (t : Template ω) (data : Bytes) : Template ω :=
  if t.endsNamed then { t with fragments := t.fragments ++ [data] }
  else if data.isEmpty then t
  else { t with fragments := appendToLast data t.fragments }

/-- The template with static text added. -/
def addText (t : Template ω) (text : Points) (encoding : Encoding) :
    Except Fault (Template ω) :=
  (encoding.encode text).map t.addStatic

/-- The template with text in UTF-8 added. -/
def addUtf8 (t : Template ω) (text : List Char) : Template ω := t.addStatic (Utf8.encode text)

/-- The template with a placeholder at its last slot, which must be free. -/
def nameLast (t : Template ω) (name : String) (wrap : Option ω) : Template ω :=
  let slot := t.fragments.length
  { t with
    -- slots without a name are kept track of only where a named one follows
    slotNames :=
      t.slotNames ++ List.replicate (slot - t.slotNames.length) none ++ [some name]
    table := t.table.push name slot
    wraps := match wrap with
      | some w => (slot, w) :: t.wraps.filter (·.1 ≠ slot)
      | none => t.wraps }

/-- The template with a placeholder added, behind an empty fragment if it ends in one.  A
placeholder must have a name. -/
def addPlaceholder (t : Template ω) (name : String) (wrap : Option ω) :
    Except Fault (Template ω) :=
  if name.isEmpty then .error .emptyName
  else .ok ((if t.endsNamed then t.addStatic [] else t).nameLast name wrap)

/-- The wraps with that of a slot replaced, or removed. -/
def withWrap (wraps : List (Nat × ω)) (wrap : Option ω) (slot : Nat) : List (Nat × ω) :=
  match wrap with
  | some w => (slot, w) :: wraps.filter (·.1 ≠ slot)
  | none => wraps.filter (·.1 ≠ slot)

/-- The template with a wrap at all slots of a name, or with none there; nothing if the name has
no slots. -/
def setWrap? (t : Template ω) (name : String) (wrap : Option ω) : Option (Template ω) :=
  (t.slots? name).map fun slots =>
    { t with wraps := slots.foldl (fun ws slot => withWrap ws wrap slot) t.wraps }

/-- The template with the slots of a name forgotten in the table, but not at the slots. -/
def emptySlots (t : Template ω) (name : String) : Template ω :=
  { t with table := t.table.set name [] }

@[simp] theorem blank_name (name : String) : (blank name : Template ω).name = name := rfl

@[simp] theorem blank_fragments (name : String) : (blank name : Template ω).fragments = [] := rfl

@[simp] theorem blank_table (name : String) : (blank name : Template ω).table = [] := rfl

@[simp] theorem nameAt_blank (name : String) (slot : Nat) :
    (blank name : Template ω).nameAt slot = none := rfl

@[simp] theorem name_addStatic (t : Template ω) (data : Bytes) :
    (t.addStatic data).name = t.name := by
  unfold addStatic; split <;> (try split) <;> rfl

@[simp] theorem table_addStatic (t : Template ω) (data : Bytes) :
    (t.addStatic data).table = t.table := by
  unfold addStatic; split <;> (try split) <;> rfl

end Template

end Stencil
