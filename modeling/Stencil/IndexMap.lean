import Stencil.Failure
import Stencil.Text.Cut

/-!
# Index maps

An index map is a record whose fields hold the slots of a template's placeholders, so that content
can be bound by slots without looking names up.  A field tells by its tag which placeholder it is
for and whether the template may lack it.  Fields without a tag are for the template itself, if
their type says so, or may be mapped by a function of their names, if they are lists of slots.

## Main definitions

* `IndexTag`, `IndexTag.ofText` — the tags.
* `TypeHint`, `FieldKind.ofHint` — the types that fields are declared with and what they say.
* `IndexField` — the fields of an index map.
* `IndexMap` — what the fields hold.
* `IndexMap.init` — an index map filled from a template, and the placeholders without a field.
-/

namespace Stencil

/-! ### Tags -/

/-- What a tag says. -/
inductive IndexTag where
  /-- The field is for nothing. -/
  | ignored
  /-- The field is for a placeholder, which the template may lack if it is optional. -/
  | placeholder (name : String) (optional : Bool)
  deriving DecidableEq, Repr

namespace IndexTag

/-- The tag of a field that is for nothing. -/
def ignoredText : String := "-"

/-- The word behind the name of an optional placeholder. -/
def optionalText : String := "opt"

/-- What a tag says: the name of a placeholder and an option after a blank. -/
def ofText (tag : String) : Except IndexMapError IndexTag :=
  let (name, option) := match Text.cut? [' '] tag.toList with
    | some (before, after) => (String.ofList before, some (String.ofList after))
    | none => (tag, none)
  if name.isEmpty then .error (.tagWithoutName tag)
  else if name = ignoredText then .ok .ignored
  else
    match option with
    | none => .ok (.placeholder name false)
    | some option =>
      if option = optionalText then .ok (.placeholder name true)
      else .error (.unknownOption option tag)

end IndexTag

/-! ### Index maps -/

/-- A type that a field may hold, as far as types are told apart. -/
inductive FieldType where
  /-- A template. -/
  | template
  /-- A list, of anything. -/
  | list
  /-- Any other type. -/
  | other
  deriving DecidableEq, Repr, Inhabited

/-- What a field is declared to hold. -/
structure TypeHint where
  /-- The types that are named; several of them are a union. -/
  types : List FieldType
  deriving DecidableEq, Repr, Inhabited

/-- Whether the field is for a template, which may be one type of a union. -/
def TypeHint.isTemplate (h : TypeHint) : Bool := h.types.contains .template

/-- Whether the field is for a list of slots, which may not be in a union. -/
def TypeHint.isSlotList (h : TypeHint) : Bool := h.types == [.list]

/-- What the type of a field says. -/
inductive FieldKind where
  /-- It holds slots. -/
  | slots
  /-- It holds a template. -/
  | template
  /-- It holds neither. -/
  | other
  deriving DecidableEq, Repr, Inhabited

/-- What a declared type says. -/
def FieldKind.ofHint (h : TypeHint) : FieldKind :=
  if h.isTemplate then .template else if h.isSlotList then .slots else .other

/-- A field of an index map. -/
structure IndexField where
  /-- Its name. -/
  name : String
  /-- What it is declared to hold. -/
  hint : TypeHint
  /-- Its tag, if it has one. -/
  tag : Option String
  deriving DecidableEq, Repr

/-- What the type of a field says. -/
def IndexField.kind (f : IndexField) : FieldKind := .ofHint f.hint

/-- What a field holds, with templates in `τ`. -/
inductive IndexEntry (τ : Type) where
  /-- Nothing yet. -/
  | unset
  /-- Slots. -/
  | slots (slots : List Int)
  /-- A template. -/
  | template (t : τ)
  deriving Repr

/-- What the fields of an index map hold. -/
abbrev IndexMap (τ : Type) := List (String × IndexEntry τ)

/-- An index map in the course of being filled: what its fields hold, the template, and the names of
the placeholders that have a field. -/
structure IndexFilling (τ ω : Type) where
  /-- What the fields hold so far. -/
  entries : IndexMap τ
  /-- The template. -/
  source : Template ω
  /-- The placeholders that have a field. -/
  mapped : List String

namespace IndexMap

variable {τ ω : Type}

/-- The index map with nothing in its fields. -/
def blank (fields : List IndexField) : IndexMap τ := fields.map fun f => (f.name, .unset)

/-- The index map with a field set. -/
def set (m : IndexMap τ) (field : String) (entry : IndexEntry τ) : IndexMap τ :=
  m.map fun e => if e.1 = field then (e.1, entry) else e

/-- What a field holds. -/
def get (m : IndexMap τ) (field : String) : IndexEntry τ := (m.lookup field).getD .unset

/-- The slots in a field, or the fault of one that holds none. -/
def slots (m : IndexMap τ) (field : String) : Except Fault (List Int) :=
  match m.get field with
  | .slots slots => .ok slots
  | .unset => .error (.noSlots "NoneType")
  | .template _ => .error (.noSlots "Template")

/-- The index map with one more slot in a field that holds slots. -/
def append (m : IndexMap τ) (field : String) (slot : Int) : IndexMap τ :=
  match m.get field with
  | .slots slots => m.set field (.slots (slots ++ [slot]))
  | _ => m

/-- What a field without a template in it is for: what its tag says, or what the function of names
makes of its own name if it is a list of slots. -/
def fieldTag (mapNames : Option (String → Except Fault String)) (f : IndexField) :
    Except (Failure ω) IndexTag :=
  match f.tag, mapNames, f.kind with
  | some tag, _, _ => (IndexTag.ofText tag).mapError .indexMap
  | none, some map, .slots =>
    match map f.name with
    | .ok name => .ok (.placeholder name false)
    | .error e => .error (.fault e)
  | none, _, _ => .ok .ignored

/-- Fill one field with the slots of a placeholder. -/
def fillField (f : IndexField) (name : String) (optional : Bool) (st : IndexFilling τ ω) :
    IndexFilling τ ω × Option (Failure ω) :=
  match st.source.slots? name with
  | some slots =>
    ({ st with
      entries := st.entries.set f.name (.slots (slots.map Int.ofNat))
      mapped := name :: st.mapped }, none)
  | none =>
    -- looking for the name drops its entry if no slot is left in it
    let st := { st with source := st.source.dropEmptied name }
    if optional then ({ st with entries := st.entries.set f.name (.slots []) }, none)
    else (st, some (.indexMap (.missingPlaceholder f.name st.source.name name)))

/-- Fill the fields one by one, up to the first that cannot be filled. -/
def fillFields (ref : τ) (mapNames : Option (String → Except Fault String)) :
    List IndexField → IndexFilling τ ω → IndexFilling τ ω × Option (Failure ω)
  | [], st => (st, none)
  | f :: rest, st =>
    if f.tag.isNone && f.kind == .template then
      fillFields ref mapNames rest { st with entries := st.entries.set f.name (.template ref) }
    else
      match fieldTag mapNames f with
      | .error e => (st, some e)
      | .ok .ignored => fillFields ref mapNames rest st
      | .ok (.placeholder name optional) =>
        match fillField f name optional st with
        | (st, some e) => (st, some e)
        | (st, none) => fillFields ref mapNames rest st

/-- The error of placeholders that have no field, if there are some. -/
def unmapped? (st : IndexFilling τ ω) : Option IndexMapError :=
  match st.source.names.filter fun name => !st.mapped.contains name with
  | [] => none
  | names => some (.unmapped st.source.name names)

/-- An index map filled from a template, which fields may hold as `ref`; the template after its
names were looked up; and the error of placeholders that have no field, if there are some, or what
stopped the filling. -/
def init (fields : List IndexField) (ref : τ) (t : Template ω)
    (mapNames : Option (String → Except Fault String)) :
    IndexMap τ × Template ω × Except (Failure ω) (Option IndexMapError) :=
  match fillFields ref mapNames fields ⟨blank fields, t, []⟩ with
  | (st, some e) => (st.entries, st.source, .error e)
  | (st, none) => (st.entries, st.source, .ok (unmapped? st))

/-- Nothing, or the error of placeholders that have no field. -/
def requireAll : Option IndexMapError → Except (Failure ω) Unit
  | none => .ok ()
  | some e => .error (.indexMap e)

end IndexMap

end Stencil
