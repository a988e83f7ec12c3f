import Stencil.Proofs.Bound.Wraps
import Stencil.Proofs.Content.References
import Stencil.Proofs.Content.Shadow

/-!
# What a report depends on

A report fills its template with values alone, and the wraps of a report do not bring in anything
else.  So what it gives depends neither on the bound templates that content might refer to nor on
the scripts that ran before.

## Main definitions

* `Bound.IsClosed` — bound templates whose content does not depend on what references stand for.

## Main results

* `Tree.render_runs` — rendering does not depend on the scripts that ran before.
* `Template.report_eq_of_wraps` — a report depends on nothing but its template and its data.
* `Template.WellFormed.report_fst` — what a report leaves of its template.
-/

namespace Stencil

variable {ω ρ : Type}

/-! ### Rendering -/

/-- What content is rendered to does not depend on the scripts that ran before. -/
theorem Tree.render_runs (c : Tree ω) (runs runs' : Runs) :
    (Tree.render c runs).1 = (Tree.render c runs').1 := by
  have halike : Sink.buffer.Alike Sink.buffer Eq := by
    rintro data s _ rfl
    exact ⟨rfl, rfl⟩
  have hagree := Tree.emit_alike c halike (rfl : ([] : Bytes) = []) runs runs'
  rw [Tree.render, Tree.render, hagree.outcome, hagree.sink]
  cases (Tree.emit c Sink.buffer [] runs').outcome with
  | error f => rfl
  | ok r => rcases r with ⟨count, _ | error⟩ <;> rfl

/-! ### Filling -/

namespace Bound

variable {b : Bound (Wrap ρ) (Content (Wrap ρ) ρ)} {c : Content (Wrap ρ) ρ}

/-- The template has no wraps but those of a report, and the content does not depend on what
references stand for. -/
structure IsClosed (b : Bound (Wrap ρ) (Content (Wrap ρ) ρ)) : Prop where
  /-- Its wraps are those of a report. -/
  wraps : ∀ s w, b.template.wrapAt s = some w → w = Wrap.html
  /-- Its content is closed. -/
  content : ∀ c, some c ∈ b.bindings → c.IsClosed

theorem IsClosed.wrapped (h : b.IsClosed) (hc : c.IsClosed) (i : Int) :
    (b.wrapped i c).IsClosed := by
  unfold Bound.wrapped
  split
  · next w hw =>
    unfold wrapAt at hw
    split at hw
    · cases hw
    · rw [h.wraps _ w hw]
      intro f g
      exact congrArg (Content.escaper Escape.html .standard) (hc f g)
  · exact hc

theorem IsClosed.bindAt (hc : c.IsClosed) : ∀ (slots : List Int) (anonymous : Nat)
    {b : Bound (Wrap ρ) (Content (Wrap ρ) ρ)}, b.IsClosed →
      (bindAt c slots anonymous b).1.IsClosed := by
  intro slots
  induction slots with
  | nil => exact fun _ _ h => h
  | cons i rest ih =>
    intro anonymous b h
    unfold Bound.bindAt
    split
    · exact h
    · next p _ =>
      -- what is put in the slot is closed, and the others have what they had
      refine ih _ ⟨h.wraps, fun c' hc' => ?_⟩
      rcases List.mem_or_eq_of_mem_set hc' with hmem | heq
      · exact h.content c' hmem
      · cases heq
        exact h.wrapped hc i

theorem IsClosed.bindSlots (h : b.IsClosed) (hc : c.IsClosed) (slots : List Nat) :
    (b.bindSlots slots c).1.IsClosed := by
  have hbind := IsClosed.bindAt hc (slots.map Int.ofNat) 0 h
  unfold Bound.bindSlots
  split <;> next heq => rw [heq] at hbind; exact hbind

/-- Content made of a value is closed. -/
theorem isClosed_ofValue (format : List Char) (v : Value) :
    (Content.ofValue format v : Content (Wrap ρ) ρ).IsClosed := by
  intro f g
  unfold Content.ofValue
  split <;> rfl

theorem IsClosed.fillOne (h : b.IsClosed) (added : List Adapter) (o : FillOptions) (data : Value)
    (spec : List Char) (slots : List Nat) : (fillOne added o data spec slots b).1.IsClosed := by
  unfold Bound.fillOne
  dsimp only
  split
  · exact h
  · next v _ =>
    split
    · have hbind := h.bindSlots (isClosed_ofValue (Path.splitSpec spec).1 v) slots
      split <;> next heq => rw [heq] at hbind; exact hbind
    · exact h

theorem IsClosed.fillTable (added : List Adapter) (o : FillOptions) (data : Value) :
    ∀ (table : SlotTable) (missed : Nat) {b : Bound (Wrap ρ) (Content (Wrap ρ) ρ)}, b.IsClosed →
      (fillTable added o data table missed b).1.IsClosed := by
  intro table
  induction table with
  | nil => exact fun _ _ h => h
  | cons entry rest ih =>
    obtain ⟨name, slots⟩ := entry
    intro missed b h
    unfold Bound.fillTable
    split
    · exact ih missed h
    · next spec _ =>
      split
      · exact h
      · exact ih missed h
      · have hone := h.fillOne added o data spec slots
        split
        · next heq => rw [heq] at hone; exact hone
        · next heq =>
          rw [heq] at hone
          exact ih _ hone

theorem IsClosed.fillEmpty (h : b.IsClosed) : b.fillEmpty.IsClosed :=
  h.bindSlots (fun _ _ => rfl) _

/-- A closed bound template is expanded to the same whatever references stand for. -/
theorem IsClosed.expand_eq (h : b.IsClosed) (f g : ρ → Tree (Wrap ρ)) :
    b.expand f = b.expand g := by
  rw [expand, expand, expandBindings_congr h.content f g]

end Bound

/-! ### Reports -/

namespace Template

variable {t : Template (Wrap ρ)}

/-- A report does not depend on what is shared besides its template, nor on the scripts that ran. -/
theorem report_eq_of_wraps (hwraps : ∀ s w, t.wrapAt s = some w → w = Wrap.html) (key : String)
    (added : List Adapter) (allowMissing : Bool) (data : Value) (f g : ρ → Tree (Wrap ρ))
    (runs runs' : Runs) :
    (t.report key added ⟨allowMissing, false⟩ data f runs).2.1 =
      (t.report key added ⟨allowMissing, false⟩ data g runs').2.1 := by
  have hfresh : (Bound.fresh t : Bound (Wrap ρ) (Content (Wrap ρ) ρ)).IsClosed := by
    refine ⟨hwraps, fun c hc => ?_⟩
    cases List.eq_of_mem_replicate hc
  have hfill := hfresh.fillTable added .standard data t.table 0
  have hrun : (Bound.fresh t : Bound (Wrap ρ) (Content (Wrap ρ) ρ)).fill added .standard data =
      Bound.fillTable added .standard data t.table 0 (Bound.fresh t) := rfl
  -- both reports bind the same content, which is then expanded and rendered
  unfold report
  rw [if_neg Bool.false_ne_true]
  dsimp only
  rw [hrun]
  generalize Bound.fillTable added .standard data t.table 0 (Bound.fresh t) = r at hfill ⊢
  obtain ⟨b, e | missed⟩ := r
  · rfl
  · dsimp only
    split
    · rfl
    · have hclosed : (if allowMissing then b.fillEmpty else b).IsClosed := by
        split
        · exact Bound.IsClosed.fillEmpty hfill
        · exact hfill
      rw [hclosed.expand_eq f g]
      exact Tree.render_runs _ runs runs'

/-- A report leaves its template as it is, but for the wraps if it escapes. -/
theorem WellFormed.report_fst (h : t.WellFormed) (key : String) (added : List Adapter)
    (o : ReportOptions) (data : Value) (f : ρ → Tree (Wrap ρ)) (runs : Runs) :
    (t.report key added o data f runs).1 = t.dressed o.escapeHtml := by
  rw [h.report_eq, report, if_neg Bool.false_ne_true]
  dsimp only
  split
  · rfl
  · split <;> rfl

end Template
end Stencil
