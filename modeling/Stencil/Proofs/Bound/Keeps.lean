import Stencil.Bound.Fixate
import Stencil.Proofs.Content.Induction
import Stencil.Proofs.Template.Edits

/-!
# What fixation keeps

Fixation only builds: it begins with a template with nothing in it, and adds static bytes and
placeholders.  So whatever building keeps holds of the new template.

## Main results

* `Bound.fixateSlots_of_fixate` — where the new template comes from.
* `fixateSlots_keeps`, `Bound.fixate_keeps` — what building keeps, fixation keeps.
-/

namespace Stencil

variable {ω : Type} {P : Template ω → Prop}

/-- The fixation has no template, or one with a property. -/
def Fixation.Keeps (P : Template ω → Prop) (x : Fixation ω) : Prop := ∀ t, x.1 = .ok t → P t

namespace Fixation

theorem Keeps.error (e : Failure ω) (runs : Runs) : Keeps P (.error e, runs) := by
  intro t ht
  cases ht

theorem Keeps.ok {t : Template ω} (ht : P t) (runs : Runs) : Keeps P (.ok t, runs) := by
  intro t' ht'
  cases ht'
  exact ht

theorem Keeps.bind {x : Fixation ω} (hx : Keeps P x) {next : Template ω → Runs → Fixation ω}
    (hnext : ∀ t runs, P t → Keeps P (next t runs)) : Keeps P (x.bind next) := by
  obtain ⟨result, runs⟩ := x
  cases result with
  | ok t => exact hnext t runs (hx t rfl)
  | error e => exact Keeps.error e runs

theorem Keeps.thenFragment (hP : Building P) {x : Fixation ω} (hx : Keeps P x)
    {fragment : Option Bytes} {next : Template ω → Runs → Fixation ω}
    (hnext : ∀ t runs, P t → Keeps P (next t runs)) : Keeps P (x.thenFragment fragment next) := by
  cases fragment with
  | none => exact hx
  | some f => exact hx.bind (fun t runs ht => hnext _ runs (hP.addStatic f ht))

end Fixation

theorem keeps_inline (hP : Building P) {target : Template ω} (h : P target)
    (c : Content ω Empty) (runs : Runs) : (inline target c runs).Keeps P := by
  unfold inline
  split
  · exact .ok (hP.addStatic _ h) _
  · exact .error _ _

theorem keeps_carryOver (hP : Building P) {target : Template ω} (h : P target) (lead : String)
    (name : Option String) (wrap : Option ω) (runs : Runs) :
    (carryOver target lead name wrap runs).Keeps P := by
  unfold carryOver
  split
  · exact .ok h runs
  · split
    · next ht => exact .ok (hP.addPlaceholder h ht) runs
    · exact .error _ runs

theorem fixateContent_leaf {separator : String} {c : Content ω Empty} (hc : c.IsLeaf)
    (lead : String) (target : Template ω) (runs : Runs) :
    fixateContent separator c lead target runs = inline target c runs := by
  cases c with
  | bound template bindings => exact absurd rfl (hc template bindings)
  | _ => rfl

/-- Slots are fixated by building, if what is bound to them is. -/
theorem fixateSlots_keeps_of {separator : String} (hP : Building P) (t : Template ω)
    (lead : String) : ∀ (bindings : List (Option (Content ω Empty))),
      (∀ c, some c ∈ bindings → ∀ lead target runs, P target →
        (fixateContent separator c lead target runs).Keeps P) →
      ∀ (slot : Nat) (target : Template ω) (runs : Runs), P target →
        (fixateSlots separator t lead slot bindings target runs).Keeps P := by
  intro bindings
  induction bindings with
  | nil => exact fun _ slot target runs _ => .error _ runs
  | cons binding rest ih =>
    intro hbound slot target runs h
    have hnext : ∀ (target : Template ω) (runs : Runs), P target →
        (fixateSlots separator t lead (slot + 1) rest target runs).Keeps P :=
      ih (fun c hc => hbound c (List.mem_cons_of_mem _ hc)) (slot + 1)
    cases binding with
    | none => exact (keeps_carryOver hP h lead _ _ runs).thenFragment hP hnext
    | some c => exact (hbound c List.mem_cons_self lead target runs h).thenFragment hP hnext

theorem fixateContent_keeps {separator : String} (hP : Building P) (c : Content ω Empty) :
    ∀ (lead : String) (target : Template ω) (runs : Runs), P target →
      (fixateContent separator c lead target runs).Keeps P := by
  induction c using Content.inductBound with
  | leaf c hc =>
    intro lead target runs h
    rw [fixateContent_leaf hc]
    exact keeps_inline hP h c runs
  | bound t bindings ih =>
    intro lead target runs h
    exact fixateSlots_keeps_of hP t _ bindings ih 0 target runs h

/-- What building keeps, fixation keeps. -/
theorem fixateSlots_keeps {separator : String} (hP : Building P) (t : Template ω) (lead : String)
    (bindings : List (Option (Content ω Empty))) (slot : Nat) {target : Template ω} (runs : Runs)
    (h : P target) : (fixateSlots separator t lead slot bindings target runs).Keeps P :=
  fixateSlots_keeps_of hP t lead bindings (fun c _ => fixateContent_keeps hP c) slot target runs h

/-- What a bound template is fixated to is what its slots are fixated to, beginning with nothing. -/
theorem Bound.fixateSlots_of_fixate {b : Bound ω (Content ω Empty)} {separator : String}
    {runs : Runs} {t : Template ω} (ht : (b.fixate separator runs).1 = .ok (some t)) :
    (fixateSlots separator b.template "" 0 b.bindings (.blank b.template.name) runs).1 = .ok t := by
  unfold Bound.fixate at ht
  split at ht
  · cases ht
  · split at ht
    · next heq =>
      cases ht
      rw [heq]
    · cases ht

theorem Bound.fixate_keeps (hP : Building P) {b : Bound ω (Content ω Empty)} {separator : String}
    {runs : Runs} {t : Template ω} (ht : (b.fixate separator runs).1 = .ok (some t)) : P t :=
  fixateSlots_keeps hP b.template "" b.bindings 0 runs (hP.blank b.template.name) t
    (fixateSlots_of_fixate ht)

end Stencil
