import Stencil.Proofs.Content.Induction

/-!
# Content without references

Putting content in place of references changes only content that has some.  Where no reference can
be, all stays as it is; and content in which there happens to be none becomes the same whatever the
references stand for.

## Main definitions

* `Content.IsClosed` — content that does not depend on what references stand for.

## Main results

* `Tree.expand_self` — a tree has no references.
* `expandBindings_congr` — nor have bindings of closed content.
-/

namespace Stencil

variable {ω ρ τ : Type}

/-- Bindings are expanded one by one. -/
theorem expandBindings_eq_map (f : ρ → Content ω τ) (bindings : List (Option (Content ω ρ))) :
    expandBindings f bindings = bindings.map (Option.map (Content.expand f)) := by
  induction bindings with
  | nil => rfl
  | cons binding rest ih =>
    cases binding with
    | none => rw [expandBindings, ih]; rfl
    | some c => rw [expandBindings, ih]; rfl

theorem expandBindings_eq_self {f : Empty → Tree ω} {bindings : List (Option (Tree ω))}
    (h : ∀ c, some c ∈ bindings → c.expand f = c) : expandBindings f bindings = bindings := by
  rw [expandBindings_eq_map]
  refine (List.map_congr_left fun binding hbinding => ?_).trans (List.map_id bindings)
  cases binding with
  | none => rfl
  | some c => exact congrArg some (h c hbinding)

/-- A tree has no references. -/
theorem Tree.expand_self (f : Empty → Tree ω) (c : Tree ω) : c.expand f = c := by
  induction c using Content.induct (fun script => script.expand f = script) with
  | empty => rfl
  | data bytes => rfl
  | print value encoding => rfl
  | format format values encoding => rfl
  | generator label script ih => rw [Content.expand, ih]
  | brackets before inner after ih => rw [Content.expand, ih]
  | escaper escape encoding inner ih => rw [Content.expand, ih]
  | bound template bindings ih => rw [Content.expand, expandBindings_eq_self ih]
  | shared ref => exact ref.elim
  | done returned => rfl
  | giveUp f => rfl
  | write data next ih => rw [Script.expand, funext ih]
  | emit content next ihContent ih => rw [Script.expand, ihContent, funext ih]

/-- The content does not depend on what references stand for. -/
def Content.IsClosed (c : Content ω ρ) : Prop := ∀ f g : ρ → Tree ω, c.expand f = c.expand g

theorem expandBindings_congr {bindings : List (Option (Content ω ρ))}
    (h : ∀ c, some c ∈ bindings → c.IsClosed) (f g : ρ → Tree ω) :
    expandBindings f bindings = expandBindings g bindings := by
  rw [expandBindings_eq_map, expandBindings_eq_map]
  refine List.map_congr_left fun binding hbinding => ?_
  cases binding with
  | none => rfl
  | some c => exact congrArg some (h c hbinding f g)

end Stencil
