import Stencil.Proofs.Bound.Keeps
import Stencil.Proofs.Content.Likeness
import Stencil.Proofs.Template.Renaming

/-!
# Fixation and renaming

A template may be renamed before a bound template of it is fixated, or the new template afterwards.
Fixation carries every placeholder over by its name, so the two ways build the same template, call
by call: one of them under the old names, and the other under the new ones.  Where content is
emitted, the two ways may end with different errors, but only as the emissions do.

## Main definitions

* `Template.Mirrors` — a template that is built under old names, and its copy under new ones.
* `Failure.Like`, `Fixation.Like` — failures and fixations that only differ in the causes of errors.
* `Content.PieceLike` — content that is no bound template, and is emitted alike.

## Main results

* `fixateSlots_like` — slots are fixated to a template and its copy.
* `Bound.fixate_renamed` — a renamed template is fixated to what its template is, under new names.
-/

namespace Stencil

variable {ω : Type} {R : EmitCause → EmitCause → Prop} {φ : String → String}
  {t target target' : Template ω}

/-! ### Copies under new names -/

/-- The template `target` is built from names of `t`, and `target'` is its copy under new names. -/
structure Template.Mirrors (t : Template ω) (φ : String → String) (target target' : Template ω) :
    Prop where
  /-- It is well-formed. -/
  wellFormed : target.WellFormed
  /-- It has no other names. -/
  names : ∀ n ∈ target.names, n ∈ t.names
  /-- The copy has the new names. -/
  renamed : target' = target.renamed φ

namespace Template.Mirrors

theorem blank (t : Template ω) (φ : String → String) (name : String) :
    t.Mirrors φ (.blank name) (.blank name) where
  wellFormed := wellFormed_blank name
  names n hn := by cases hn
  renamed := rfl

theorem addStatic (h : t.Mirrors φ target target') (data : Bytes) :
    t.Mirrors φ (target.addStatic data) (target'.addStatic data) where
  wellFormed := h.wellFormed.addStatic data
  names n hn := h.names n (names_addStatic target data ▸ hn)
  renamed := by rw [h.renamed, h.wellFormed.renamed_addStatic]

theorem addPlaceholder (h : t.Mirrors φ target target') {name : String} (hmem : name ∈ t.names)
    (hname : name ≠ "") (hnew : φ name ≠ "") (wrap : Option ω) :
    ∃ u u', target.addPlaceholder name wrap = .ok u ∧
      target'.addPlaceholder (φ name) wrap = .ok u' ∧ t.Mirrors φ u u' := by
  obtain ⟨u, hu, hu'⟩ := h.wellFormed.addPlaceholder_renamed hname hnew wrap
  refine ⟨u, u.renamed φ, hu, h.renamed ▸ hu', h.wellFormed.addPlaceholder hu, fun n hn => ?_, rfl⟩
  rcases names_addPlaceholder hu hn with rfl | hn
  · exact hmem
  · exact h.names n hn

end Template.Mirrors

/-! ### Fixations side by side -/

/-- The failures are the same, or errors of emissions that are alike. -/
inductive Failure.Like (R : EmitCause → EmitCause → Prop) : Failure ω → Failure ω → Prop where
  /-- The same failure. -/
  | same (e : Failure ω) : Like R e e
  /-- Errors that are alike. -/
  | emit {e e' : EmitError} (h : e.Like R e') : Like R (.emit e) (.emit e')

/-- The fixations end in the same way after the same runs. -/
structure Fixation.Like (R : EmitCause → EmitCause → Prop) (P : Template ω → Template ω → Prop)
    (x x' : Fixation ω) : Prop where
  /-- They end in the same way. -/
  result : EndLike (Failure.Like R) P x.1 x'.1
  /-- The same scripts ran. -/
  runs : x.2 = x'.2

/-- Content that is emitted alike is rendered to the same bytes. -/
theorem render_like {c c' : Tree ω} (h : c.EmitsLike R c') (runs : Runs) :
    EndLike (Failure.Like R) Eq (Tree.render c runs).1 (Tree.render c' runs).1 ∧
      (Tree.render c runs).2 = (Tree.render c' runs).2 := by
  have hemit := h Bytes .buffer [] runs
  unfold Tree.render
  generalize Tree.emit c .buffer [] runs = e at hemit ⊢
  generalize Tree.emit c' .buffer [] runs = e' at hemit ⊢
  obtain ⟨outcome, s, runs₁⟩ := e
  obtain ⟨outcome', s', runs₁'⟩ := e'
  obtain ⟨houtcome, rfl, rfl⟩ := hemit
  cases houtcome with
  | error hf =>
    cases hf
    exact ⟨.error (.same _), rfl⟩
  | @ok r r' hr =>
    obtain ⟨count, error⟩ := r
    obtain ⟨count', error'⟩ := r'
    obtain ⟨-, herror⟩ := hr
    cases herror with
    | some he => exact ⟨.error (.emit he), rfl⟩
    | none => exact ⟨.ok rfl, rfl⟩

namespace Fixation

theorem like_ok {P : Template ω → Template ω → Prop} (h : P target target') (runs : Runs) :
    Like R P (.ok target, runs) (.ok target', runs) := ⟨.ok h, rfl⟩

theorem like_failure {P : Template ω → Template ω → Prop} (e : Failure ω) (runs : Runs) :
    Like R P (.error e, runs) (.error e, runs) := ⟨.error (.same e), rfl⟩

theorem Like.thenFragment {x x' : Fixation ω} (h : x.Like R (t.Mirrors φ) x')
    {next next' : Template ω → Runs → Fixation ω}
    (hnext : ∀ target target' runs, t.Mirrors φ target target' →
      (next target runs).Like R (t.Mirrors φ) (next' target' runs)) (fragment : Option Bytes) :
    (x.thenFragment fragment next).Like R (t.Mirrors φ) (x'.thenFragment fragment next') := by
  cases fragment with
  | none => exact h
  | some f =>
    obtain ⟨result, runs⟩ := x
    obtain ⟨result', runs'⟩ := x'
    obtain ⟨hresult, rfl⟩ := h
    cases hresult with
    | ok htarget => exact hnext _ _ runs (htarget.addStatic f)
    | error he => exact ⟨.error he, rfl⟩

end Fixation

theorem inline_like (h : t.Mirrors φ target target') {c c' : Tree ω} (hc : c.EmitsLike R c')
    (runs : Runs) : (inline target c runs).Like R (t.Mirrors φ) (inline target' c' runs) := by
  obtain ⟨hresult, hruns⟩ := render_like hc runs
  unfold inline
  generalize Tree.render c runs = x at hresult hruns ⊢
  generalize Tree.render c' runs = x' at hresult hruns ⊢
  obtain ⟨result, runs₁⟩ := x
  obtain ⟨result', runs₁'⟩ := x'
  cases hruns
  cases hresult with
  | ok hdata =>
    cases hdata
    exact Fixation.like_ok (h.addStatic _) runs₁
  | error he => exact ⟨.error he, rfl⟩

/-- No name of the template is empty, and none becomes so. -/
def Template.KeepsNames (t : Template ω) (φ : String → String) : Prop :=
  ∀ n ∈ t.names, n ≠ "" ∧ φ n ≠ ""

/-- The placeholder of a slot is carried over under its old name and under its new one. -/
theorem carryOver_like (h : t.Mirrors φ target target') (ht : t.WellFormed)
    (hnames : t.KeepsNames φ) (slot : Nat) (wrap : Option ω) (runs : Runs) :
    (carryOver target "" (t.nameAt slot) wrap runs).Like R (t.Mirrors φ)
      (carryOver target' "" ((t.nameAt slot).map φ) wrap runs) := by
  cases hat : t.nameAt slot with
  | none => exact Fixation.like_ok h runs
  | some name =>
    have hmem := ht.lists.mem_names hat
    obtain ⟨hname, hnew⟩ := hnames name hmem
    obtain ⟨u, u', hu, hu', hmirrors⟩ := h.addPlaceholder hmem hname hnew wrap
    rw [Option.map_some, carryOver, carryOver, String.empty_append, String.empty_append, hu, hu']
    exact Fixation.like_ok hmirrors runs

/-- Content that is emitted when it is fixated, and alike. -/
structure Content.PieceLike (R : EmitCause → EmitCause → Prop) (c c' : Tree ω) : Prop where
  /-- The first one is no bound template. -/
  leaf : c.IsLeaf
  /-- Nor is the second one. -/
  leaf' : c'.IsLeaf
  /-- They are emitted alike. -/
  emits : c.EmitsLike R c'

/-- **Slots are fixated to a template and its copy under new names**, if what is bound to them is no
bound template and is emitted alike. -/
theorem fixateSlots_like (ht : t.WellFormed) (hnames : t.KeepsNames φ) (separator : String)
    {bindings bindings' : List (Option (Tree ω))}
    (hbindings : List.Forall₂ (Option.Rel (Content.PieceLike R)) bindings bindings') :
    ∀ (slot : Nat) (target target' : Template ω) (runs : Runs), t.Mirrors φ target target' →
      (fixateSlots separator t "" slot bindings target runs).Like R (t.Mirrors φ)
        (fixateSlots separator (t.renamed φ) "" slot bindings' target' runs) := by
  induction hbindings with
  | nil => exact fun slot target target' runs _ => Fixation.like_failure _ runs
  | cons hbinding _ ih =>
    intro slot target target' runs h
    have hnext := ih (slot + 1)
    cases hbinding with
    | none =>
      rw [fixateSlots, fixateSlots, Template.nameAt_renamed]
      exact (carryOver_like h ht hnames slot _ runs).thenFragment hnext _
    | some hc =>
      rw [fixateSlots, fixateSlots, fixateContent_leaf hc.leaf, fixateContent_leaf hc.leaf']
      exact (inline_like h hc.emits runs).thenFragment hnext _

/-! ### Bound templates -/

/-- **A renamed template is fixated to what its template is fixated to, under new names.** -/
theorem Bound.fixate_renamed (ht : t.WellFormed) (hnames : t.KeepsNames φ)
    {bindings bindings' : List (Option (Tree ω))}
    (hbindings : List.Forall₂ (Option.Rel (Content.PieceLike R)) bindings bindings')
    (separator : String) (runs : Runs) :
    EndLike (Failure.Like R) (Option.Rel (t.Mirrors φ))
        ((Bound.mk t bindings).fixate separator runs).1
        ((Bound.mk (t.renamed φ) bindings').fixate separator runs).1 ∧
      ((Bound.mk t bindings).fixate separator runs).2 =
        ((Bound.mk (t.renamed φ) bindings').fixate separator runs).2 := by
  rw [fixate, fixate, Template.isStatic_renamed]
  cases t.isStatic with
  | true => exact ⟨.ok .none, rfl⟩
  | false =>
    obtain ⟨hresult, hruns⟩ := fixateSlots_like ht hnames separator hbindings 0 (.blank t.name)
      (.blank t.name) runs (.blank t φ t.name)
    dsimp only
    generalize fixateSlots separator t "" 0 bindings (.blank t.name) runs = x at hresult hruns ⊢
    have hblank : (Template.blank (t.renamed φ).name : Template ω) = .blank t.name := rfl
    rw [hblank]
    generalize fixateSlots separator (t.renamed φ) "" 0 bindings' (.blank t.name) runs = x'
      at hresult hruns ⊢
    obtain ⟨result, runs₁⟩ := x
    obtain ⟨result', runs₁'⟩ := x'
    cases hruns
    cases hresult with
    | ok hmirrors => exact ⟨.ok (.some hmirrors), rfl⟩
    | error he => exact ⟨.error he, rfl⟩

end Stencil
