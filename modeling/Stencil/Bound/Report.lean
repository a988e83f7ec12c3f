import Stencil.Bound.Fill
import Stencil.Bound.Fixate
import Stencil.Source.Catalog

/-!
# Reports

A report is a template of a catalogue filled from data and written out.  Placeholders that have no
value in the data are an error, or left empty if that is asked for.  Everything that is filled in
may be escaped for HTML; to that end the template's placeholders get a wrap, which they keep.

## Main definitions

* `ReportOptions` — what can be asked for.
* `Template.report` — the bytes of a template filled from data, and the template after it.
* `Catalog.report` — the bytes of a template of a catalogue.
-/

namespace Stencil

/-- What can be asked for. -/
structure ReportOptions where
  /-- Whether placeholders without a value are left empty. -/
  allowMissing : Bool
  /-- Whether all that is filled in is escaped for HTML. -/
  escapeHtml : Bool
  deriving DecidableEq, Repr

variable [DigitLimit] {ω ρ : Type}

/-- The template with a wrap on the placeholders of some names, up to the first name that has no
slots left. -/
def Template.wrapNames (w : ω) : List String → Template ω → Template ω × Except (Failure ω) Unit
  | [], t => (t, .ok ())
  | name :: rest, t =>
    match t.setWrap? name (some w) with
    | some t => wrapNames w rest t
    | none => (t.dropEmptied name, .error (.template (.unknownPlaceholder name t.name)))

/-- The slots that have a name. -/
def Template.namedSlots (t : Template ω) : List Nat :=
  (List.range t.slotCount).filter fun slot => (t.nameAt slot).isSome

namespace Bound

/-- The bound template with nothing at the named slots that have no content, which their wraps
make of it what they do. -/
def fillEmpty [Wrapping ω (Content ω ρ)] (b : Bound ω (Content ω ρ)) :
    Bound ω (Content ω ρ) :=
  let vacant := b.template.namedSlots.filter fun slot => (b.bindings[slot]?.join).isNone
  (b.bindSlots vacant .empty).1

/-- The bound template with content in place of references. -/
def expand (f : ρ → Tree ω) (b : Bound ω (Content ω ρ)) : Bound ω (Tree ω) :=
  ⟨b.template, expandBindings f b.bindings⟩

end Bound

/-- The bytes of a template filled from data, with content in place of references; and the template
after it, which keeps the wraps it got. -/
def Template.report (t : Template (Wrap ρ)) (key : String) (added : List Adapter)
    (o : ReportOptions) (data : Value) (f : ρ → Tree (Wrap ρ)) (runs : Runs) :
    Template (Wrap ρ) × Except (Failure (Wrap ρ)) Bytes × Runs :=
  match if o.escapeHtml then t.wrapNames Wrap.html t.names else (t, .ok ()) with
  | (t, .error e) => (t, .error e, runs)
  | (t, .ok ()) =>
    let b : Bound (Wrap ρ) (Content (Wrap ρ) ρ) := .fresh t
    match b.fill added .standard data with
    | (_, .error e) => (t, .error e, runs)
    | (b, .ok missed) =>
      if missed != 0 && !o.allowMissing then (t, .error (.usage (.missingValues missed key)), runs)
      else (t, ((if o.allowMissing then b.fillEmpty else b).expand f).render runs)

/-- The bytes of a template of a catalogue filled from data. -/
def Catalog.report (c : Catalog (Wrap Empty)) (key : String) (added : List Adapter)
    (o : ReportOptions) (data : Value) (runs : Runs) :
    Except (Failure (Wrap Empty)) Bytes × Runs :=
  match c.get? key with
  | none => (.error (.usage (.noTemplate key)), runs)
  | some t => (t.report key added o data nofun runs).2

end Stencil
