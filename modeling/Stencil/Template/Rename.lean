import Stencil.Failure

/-!
# Renaming placeholders

A placeholder may be renamed, and all of them may be renamed at once by a function of their names.
Two names that become one are merged if that is asked for; the slots of the merged name are sorted.
Renaming all at once computes the new names first, so a new name may be one that is given up.

## Main definitions

* `sortSlots` — slots in ascending order.
* `Template.rename` — one placeholder renamed.
* `Template.transform` — all placeholders renamed by a function.
-/

namespace Stencil

/-- The slot put into ascending slots. -/
def insertSlot (slot : Nat) : List Nat → List Nat
  | [] => [slot]
  | s :: rest => if slot ≤ s then slot :: s :: rest else s :: insertSlot slot rest

/-- The slots in ascending order. -/
def sortSlots (slots : List Nat) : List Nat := slots.foldr insertSlot []

@[simp] theorem sortSlots_nil : sortSlots [] = [] := rfl

/-- The slots of two names in ascending order. -/
def mergeSlots (a b : List Nat) : List Nat := sortSlots (a ++ b)

namespace Template

variable {ω : Type}

/-- The template with a name replaced at its slots and in its table. -/
def replaceName (t : Template ω) (current new : String) (slots : List Nat) : Template ω :=
  { t with
    slotNames := t.slotNames.map fun n => if n = some current then some new else n
    table := (t.table.erase current).set new slots }

/-- The template with the placeholder `current` renamed to `new`, which may be the name of another
placeholder if the two are to be merged. -/
def rename (t : Template ω) (current new : String) (merge : Bool) :
    Except TemplateError (Template ω) :=
  match t.table.lookup current with
  | none => .error (.unknownPlaceholder current t.name)
  | some slots =>
    if current = new then .ok t
    else
      match t.table.lookup new with
      | none => .ok (t.replaceName current new slots)
      | some others =>
        if merge then .ok (t.replaceName current new (mergeSlots slots others))
        else .error (.nameExists current new)

/-- The new names of the placeholders that have slots, or the first fault in computing them. -/
def newNames (f : String → Except Fault String) : SlotTable → Except Fault (List (String × String))
  | [] => .ok []
  | (_, []) :: rest => newNames f rest
  | (name, _ :: _) :: rest =>
    match f name with
    | .error e => .error e
    | .ok new =>
      match newNames f rest with
      | .error e => .error e
      | .ok renames => .ok ((name, new) :: renames)

/-- The table of the new names, from the slots of the old ones. -/
def transformTable (merge : Bool) (old : SlotTable) :
    SlotTable → List (String × String) → Except TemplateError SlotTable
  | table, [] => .ok table
  | table, (name, new) :: rest =>
    -- looked up in the old table: in the new one the name may have other slots already
    let slots := (old.lookup name).getD []
    match table.lookup new with
    | none => transformTable merge old (table.set new slots) rest
    | some others =>
      if merge then transformTable merge old (table.set new (mergeSlots others slots)) rest
      else .error (.nameExists name new)

/-- The template with every placeholder renamed by `f`. -/
def transform (t : Template ω) (f : String → Except Fault String) (merge : Bool) :
    Except (Failure ω) (Template ω) :=
  match newNames f t.table with
  | .error e => .error (.fault e)
  | .ok renames =>
    match transformTable merge t.table [] renames with
    | .error e => .error (.template e)
    | .ok table =>
      .ok { t with
        table := table
        slotNames := t.slotNames.map (·.map fun n => (renames.lookup n).getD n) }

end Template

end Stencil
