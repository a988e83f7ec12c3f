import Stencil.Bound.Basic

/-!
# Fixation

Fixating a bound template makes a new template of it.  Content is emitted once and becomes static;
placeholders without content are carried over with their wraps.  A bound template among the content
is not emitted but fixated into the same new template, its placeholders with its name and a
separator in front.

## Main definitions

* `fixateContent`, `fixateSlots` — fixation into a template that is being built.
* `Bound.fixate` — the new template.
* `Bound.render` — the bytes of a bound template.
* `Template.staticWith` — the bytes of a template with the same content in all its slots.
-/

namespace Stencil

variable [DigitLimit] {ω : Type}

/-- What stands between names when nothing else is asked for. -/
def nestingSeparator : String := ":"

/-- A template being built, or what stopped it; and the runs of scripts. -/
abbrev Fixation (ω : Type) := Except (Failure ω) (Template ω) × Runs

namespace Fixation

/-- A fixation followed by what depends on its template. -/
def bind (x : Fixation ω) (next : Template ω → Runs → Fixation ω) : Fixation ω :=
  match x with
  | (.ok target, runs) => next target runs
  | (.error e, runs) => (.error e, runs)

/-- The fixation of a slot, followed by the fragment after it and what comes then; after the last
slot comes none. -/
def thenFragment (x : Fixation ω) (fragment : Option Bytes)
    (next : Template ω → Runs → Fixation ω) : Fixation ω :=
  match fragment with
  | none => x
  | some f => x.bind fun target runs => next (target.addStatic f) runs

end Fixation

/-- The template with the placeholder of a slot without content, if it has one. -/
def carryOver (target : Template ω) (lead : String) (name : Option String) (wrap : Option ω)
    (runs : Runs) : Fixation ω :=
  match name with
  | none => (.ok target, runs)
  | some name =>
    match target.addPlaceholder (lead ++ name) wrap with
    | .ok target => (.ok target, runs)
    | .error f => (.error (.fault f), runs)

/-- The template with the bytes of content. -/
def inline (target : Template ω) (c : Content ω Empty) (runs : Runs) : Fixation ω :=
  match Tree.render c runs with
  | (.ok bytes, runs) => (.ok (target.addStatic bytes), runs)
  | (.error e, runs) => (.error e, runs)

mutual

/-- Fixate content into a template; `lead` comes before names. -/
def fixateContent (separator : String) :
    Content ω Empty → (lead : String) → Template ω → Runs → Fixation ω
  | .bound t bindings, lead, target, runs =>
    fixateSlots separator t (lead ++ t.name ++ separator) 0 bindings target runs
  | c, _, target, runs => inline target c runs
  termination_by structural c => c

/-- Fixate the slots of a template from `slot` on, with the given bindings. -/
def fixateSlots (separator : String) :
    Template ω → (lead : String) → (slot : Nat) → (bindings : List (Option (Content ω Empty))) →
      Template ω → Runs → Fixation ω
  | _, _, _, [], _, runs => (.error (.fault .slotOutOfRange), runs)
  | t, lead, slot, none :: rest, target, runs =>
    (carryOver target lead (t.nameAt slot) (t.wrapAt slot) runs).thenFragment t.fragments[slot]?
      fun target runs => fixateSlots separator t lead (slot + 1) rest target runs
  | t, lead, slot, some c :: rest, target, runs =>
    (fixateContent separator c lead target runs).thenFragment t.fragments[slot]?
      fun target runs => fixateSlots separator t lead (slot + 1) rest target runs
  termination_by structural _ _ _ bindings => bindings

end

namespace Bound

/-- The bound template as content. -/
def toContent {ρ : Type} (b : Bound ω (Content ω ρ)) : Content ω ρ := .bound b.template b.bindings

/-- The new template made of a bound one; nothing if the template has no placeholders. -/
def fixate (b : Bound ω (Content ω Empty)) (separator : String) (runs : Runs) :
    Except (Failure ω) (Option (Template ω)) × Runs :=
  if b.template.isStatic then (.ok none, runs)
  else
    -- the names of the outermost template have nothing in front
    match fixateSlots separator b.template "" 0 b.bindings (.blank b.template.name) runs with
    | (.ok t, runs) => (.ok (some t), runs)
    | (.error e, runs) => (.error e, runs)

/-- The bytes of a bound template. -/
def render (b : Bound ω (Content ω Empty)) (runs : Runs) : Except (Failure ω) Bytes × Runs :=
  Tree.render b.toContent runs

end Bound

/-- The bytes of a template, or the fault of one that is scattered. -/
def Template.staticBytesOrFail (t : Template ω) (runs : Runs) :
    Except (Failure ω) (Option Bytes) × Runs :=
  match t.staticBytes with
  | .ok bytes => (.ok bytes, runs)
  | .error f => (.error (.fault f), runs)

/-- The static bytes of what a bound template is fixated to, or of its template. -/
def Bound.staticBytes (b : Bound ω (Content ω Empty)) (runs : Runs) :
    Except (Failure ω) (Option Bytes) × Runs :=
  match b.fixate nestingSeparator runs with
  | (.error e, runs) => (.error e, runs)
  | (.ok none, runs) => b.template.staticBytesOrFail runs
  | (.ok (some t), runs) => t.staticBytesOrFail runs

/-- The bytes of a template with the same content in all its named slots. -/
def Template.staticWith [Wrapping ω (Content ω Empty)] (t : Template ω) (c : Content ω Empty)
    (runs : Runs) : Except (Failure ω) (Option Bytes) × Runs :=
  (Bound.ofContent t c).staticBytes runs

end Stencil
