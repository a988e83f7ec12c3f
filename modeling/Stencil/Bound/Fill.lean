import Stencil.Bound.Basic
import Stencil.Path

/-!
# Filling from data

A placeholder whose name starts with a marker tells after it where its value is in the data, and may
tell a format before that.  Filling binds every such placeholder whose path leads to a value, and
counts the others.

## Main definitions

* `Content.ofValue` — a value as content, in a format or not.
* `Bound.fill` — all marked placeholders bound from data.
-/

namespace Stencil

variable {ω ρ : Type}

/-- A value as content: filled into a format, unless that is empty. -/
def Content.ofValue (format : List Char) (v : Value) : Content ω ρ :=
  if format.isEmpty then .print v .standard
  else .format (.ofChars format) [v] .standard

/-- How to fill a template from data. -/
structure FillOptions where
  /-- Whether placeholders that have content get new content. -/
  overwrite : Bool
  /-- What names of placeholders to fill start with. -/
  marker : String
  /-- What stands between the segments of a path. -/
  separator : String
  deriving Repr

/-- The usual way to fill a template. -/
def FillOptions.standard : FillOptions := ⟨true, "$", Path.standardSeparator⟩

namespace Bound

variable [DigitLimit] [Wrapping ω (Content ω ρ)]

/-- The specification in a name that starts with the marker. -/
def spec? (marker name : String) : Option (List Char) :=
  if marker.toList.isPrefixOf name.toList then some (name.toList.drop marker.length) else none

/-- Bind one placeholder that has a specification; the result tells whether it was missed. -/
def fillOne (added : List Adapter) (o : FillOptions) (data : Value) (spec : List Char)
    (slots : List Nat) (b : Bound ω (Content ω ρ)) :
    Bound ω (Content ω ρ) × Except (Failure ω) Bool :=
  let (format, path) := Path.splitSpec spec
  match Path.resolve added o.separator (String.ofList path) data with
  | .error e => (b, .error e)
  | .ok v =>
    if v.isSome then
      match b.bindSlots slots (.ofValue format v) with
      | (b, .error f) => (b, .error (.fault f))
      | (b, .ok ()) => (b, .ok false)
    else (b, .ok true)

/-- Whether the placeholder is to be left as it is. -/
def isSkipped (o : FillOptions) (slots : List Nat) (b : Bound ω (Content ω ρ)) :
    Except Fault Bool :=
  if o.overwrite then .ok false else b.anyBound slots

/-- Bind the marked placeholders of a table, after `missed` that have no value. -/
def fillTable (added : List Adapter) (o : FillOptions) (data : Value) :
    SlotTable → (missed : Nat) → Bound ω (Content ω ρ) →
      Bound ω (Content ω ρ) × Except (Failure ω) Nat
  | [], missed, b => (b, .ok missed)
  | (name, slots) :: rest, missed, b =>
    match spec? o.marker name with
    | none => fillTable added o data rest missed b
    | some spec =>
      match b.isSkipped o slots with
      | .error f => (b, .error (.fault f))
      | .ok true => fillTable added o data rest missed b
      | .ok false =>
        match fillOne added o data spec slots b with
        | (b, .error e) => (b, .error e)
        | (b, .ok miss) => fillTable added o data rest (if miss then missed + 1 else missed) b

/-- Bind every placeholder that starts with the marker and whose path leads to a value; the result
is the number of those whose path does not. -/
def fill (b : Bound ω (Content ω ρ)) (added : List Adapter) (o : FillOptions) (data : Value) :
    Bound ω (Content ω ρ) × Except (Failure ω) Nat :=
  fillTable added o data b.template.table 0 b

end Bound

end Stencil
