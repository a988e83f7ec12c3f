import Stencil.Content.Emit
import Stencil.Template.Rename

/-!
# Bound templates

A bound template is a template and a place for content at each of its slots.  Content is bound at
positions, or at all slots of a name; the wrap of a slot is applied first.  Positions may also count
from the end, in the way of negative numbers; such a position has neither name nor wrap.

The places are made when the template is first taken, so a template that grows later has slots
without a place.

An operation that fails may have bound some slots before; it returns what was bound in any case.

## Main definitions

* `Bound` — a template of wraps in `ω` with content of type `κ`.
* `Bound.bind`, `Bound.bindName`, `Bound.bindIfPresent`, `Bound.bindMatching` — binding.
* `Bound.wrapAll` — all content under a wrap.
* `Bound.ofContent` — content at every named slot.
-/

namespace Stencil

/-- The position that a number means in a list of `size` places. -/
def position? (size : Nat) (i : Int) : Option Nat :=
  let i := if i < 0 then i + size else i
  if 0 ≤ i ∧ i < size then some i.toNat else none

/-- Whether a number is too large for a position. -/
def isTooLarge (i : Int) : Bool := decide (i < -(Nat.pow 2 63 : Nat) ∨ (Nat.pow 2 63 : Nat) ≤ i)

/-- A template with a place for content at its slots. -/
structure Bound (ω κ : Type) where
  /-- The template. -/
  template : Template ω
  /-- The content at the slots. -/
  bindings : List (Option κ)

namespace Bound

variable {ω κ : Type}

/-- The template with nothing bound. -/
def fresh (t : Template ω) : Bound ω κ := ⟨t, List.replicate t.slotCount none⟩

/-- The number of slots with content. -/
def boundCount (b : Bound ω κ) : Nat := b.bindings.countP (·.isSome)

/-- The bound template in one line. -/
def describe (b : Bound ω κ) : String :=
  s!"BounT({Text.quoted b.template.name}, bound={b.boundCount}/{b.bindings.length})"

/-- The content at a position. -/
def bindingAt (b : Bound ω κ) (i : Int) : Except Fault (Option κ) :=
  match (position? b.bindings.length i).bind (b.bindings[·]?) with
  | some c => .ok c
  | none => .error (if isTooLarge i then .slotTooLarge else .slotOutOfRange)

/-- Whether there is content at a position. -/
def isBound (b : Bound ω κ) (i : Int) : Except Fault Bool := (b.bindingAt i).map (·.isSome)

/-- Whether there is content at one of some positions, looked at up to the first that has some. -/
def anyBound (b : Bound ω κ) : List Nat → Except Fault Bool
  | [] => .ok false
  | slot :: rest =>
    match b.isBound slot with
    | .ok true => .ok true
    | .ok false => b.anyBound rest
    | .error f => .error f

/-- The name at a position; none at one that counts from the end. -/
def nameAt (b : Bound ω κ) (i : Int) : Option String :=
  if i < 0 then none else b.template.nameAt i.toNat

/-- The wrap at a position; none at one that counts from the end. -/
def wrapAt (b : Bound ω κ) (i : Int) : Option ω :=
  if i < 0 then none else b.template.wrapAt i.toNat

/-! ### Binding -/

variable [Wrapping ω κ]

/-- The content under the wrap at a position. -/
def wrapped (b : Bound ω κ) (i : Int) (c : κ) : κ :=
  match b.wrapAt i with
  | some w => Wrapping.apply w c
  | none => c

/-- Bind content at positions, and count those without a name after `anonymous` of them. -/
def bindAt (c : κ) : List Int → (anonymous : Nat) → Bound ω κ → Bound ω κ × Except Fault Nat
  | [], anonymous, b => (b, .ok anonymous)
  | i :: rest, anonymous, b =>
    match position? b.bindings.length i with
    | none => (b, .error (if isTooLarge i then .slotTooLarge else .noSuchSlot))
    | some p =>
      bindAt c rest (if (b.nameAt i).isNone then anonymous + 1 else anonymous)
        { b with bindings := b.bindings.set p (some (b.wrapped i c)) }

/-- Bind content at positions.  The number of those without a name is the result, or an error if
that is asked for. -/
def bind (b : Bound ω κ) (slots : List Int) (c : κ) (strict : Bool) :
    Bound ω κ × Except (Failure ω) Nat :=
  match bindAt c slots 0 b with
  | (b, .error f) => (b, .error (.fault f))
  | (b, .ok n) =>
    (b, if strict && n != 0 then .error (.template (.anonymousBind n b.template.name)) else .ok n)

/-- Bind content at slots of the template. -/
def bindSlots (b : Bound ω κ) (slots : List Nat) (c : κ) : Bound ω κ × Except Fault Unit :=
  match bindAt c (slots.map Int.ofNat) 0 b with
  | (b, .error f) => (b, .error f)
  | (b, .ok _) => (b, .ok ())

/-- Bind content at all slots of a name, if the template has it; the result tells whether. -/
def bindIfPresent (b : Bound ω κ) (name : String) (c : κ) : Bound ω κ × Except Fault Bool :=
  match b.template.slots? name with
  | none => ({ b with template := b.template.dropEmptied name }, .ok false)
  | some slots =>
    match b.bindSlots slots c with
    | (b, .error f) => (b, .error f)
    | (b, .ok ()) => (b, .ok true)

/-- Bind content at all slots of a name, which the template must have. -/
def bindName (b : Bound ω κ) (name : String) (c : κ) : Bound ω κ × Except (Failure ω) Unit :=
  match b.bindIfPresent name c with
  | (b, .error f) => (b, .error (.fault f))
  | (b, .ok false) => (b, .error (.template (.unknownPlaceholder name b.template.name)))
  | (b, .ok true) => (b, .ok ())

/-- Bind content at all slots of some names, up to the first that the template does not have. -/
def bindNames (c : κ) : List String → Bound ω κ → Bound ω κ × Except (Failure ω) Unit
  | [], b => (b, .ok ())
  | name :: rest, b =>
    match b.bindName name c with
    | (b, .error e) => (b, .error e)
    | (b, .ok ()) => bindNames c rest b

/-- Bind content at all slots of the names that pass a test; the result is those names. -/
def bindMatching (b : Bound ω κ) (test : String → Bool) (c : κ) :
    Bound ω κ × Except (Failure ω) (List String) :=
  let names := b.template.names.filter test
  match bindNames c names b with
  | (b, .error e) => (b, .error e)
  | (b, .ok ()) => (b, .ok names)

/-- Put all content under a wrap; slots without content stay without. -/
def wrapAll (b : Bound ω κ) (w : ω) : Bound ω κ :=
  { b with bindings := b.bindings.map (·.map (Wrapping.apply w)) }

/-- The template with content at every slot that has a name. -/
def ofContent (t : Template ω) (c : κ) : Bound ω κ :=
  let named := (List.range t.slotCount).filter fun slot => (t.nameAt slot).isSome
  ((fresh t).bindSlots named c).1

end Bound

end Stencil
