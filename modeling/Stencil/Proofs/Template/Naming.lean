import Stencil.Proofs.Template.Renaming

/-!
# Placeholders without a name

A placeholder must have a name when it is added.  A renaming does not ask for that: it gives a
placeholder whatever name it is told, also an empty one.  So as long as no renaming that succeeds
makes a name empty, all placeholders have names, and the first that does leaves one without.

## Main definitions

* `Template.Unnames` — an edit leaves a placeholder without a name.
* `Template.NeverUnnamed` — none of some edits does.

## Main results

* `Template.WellFormed.edit_of_failure` — an edit that fails changes nothing.
* `Template.WellFormed.empty_mem_names_edit` — which edits leave a placeholder without a name.
* `Template.WellFormed.neverUnnamed_iff` — when all placeholders have names all along.
-/

namespace Stencil
namespace Template

variable {ω : Type} {t t' : Template ω} {φ : String → String} {e : Edit ω}

/-! ### Edits that fail -/

theorem orKept_of_some {ε : Type} {toFailure : ε → Failure ω} {result : Except ε (Template ω)}
    {failure : Failure ω} (h : (t.orKept toFailure result).2 = some failure) :
    (t.orKept toFailure result).1 = t := by
  cases result with
  | ok t' => cases h
  | error e => rfl

/-- An edit that fails changes nothing. -/
theorem WellFormed.edit_of_failure (h : t.WellFormed) {failure : Failure ω}
    (hf : (t.edit e).2 = some failure) : (t.edit e).1 = t := by
  cases e with
  | addStatic data => cases hf
  | addText text encoding => exact orKept_of_some hf
  | addPlaceholder name wrap => exact orKept_of_some hf
  | setWrap name wrap =>
    cases ht : t.setWrap? name wrap with
    | some t' =>
      rw [Template.edit, ht] at hf
      cases hf
    | none => rw [Template.edit, ht, h.dropEmptied_eq]
  | rename current new merge => exact orKept_of_some hf
  | transform f merge => exact orKept_of_some hf

/-! ### Names after an edit -/

/-- The names of the one template are made of those of the other. -/
theorem Relabels.mem_names (hφ : Relabels φ t t') (h : t.WellFormed) (h' : t'.WellFormed)
    {new : String} : new ∈ t'.names ↔ ∃ n ∈ t.names, φ n = new := by
  constructor
  · intro hnew
    obtain ⟨s, hs⟩ := h'.lists.exists_slot hnew
    rw [hφ.nameAt] at hs
    obtain ⟨n, hn, rfl⟩ := Option.map_eq_some_iff.1 hs
    exact ⟨n, h.lists.mem_names hn, rfl⟩
  · rintro ⟨n, hn, rfl⟩
    obtain ⟨s, hs⟩ := h.lists.exists_slot hn
    exact h'.lists.mem_names ((hφ.nameAt s).trans (by rw [hs]; rfl))

/-- An edit that is no renaming puts no empty name among the names. -/
theorem WellFormed.empty_not_mem_names_edit (h : t.WellFormed) (he : e.renaming? = none)
    (ht : "" ∉ t.names) : "" ∉ (t.edit e).1.names := by
  cases e with
  | addStatic data =>
    rw [Template.edit, names_addStatic]
    exact ht
  | addText text encoding =>
    refine orKept_keeps (P := fun t' => "" ∉ t'.names) ht fun t' hrun => ?_
    obtain ⟨data, rfl⟩ := addText_eq_ok hrun
    rw [names_addStatic]
    exact ht
  | addPlaceholder name wrap =>
    refine orKept_keeps (P := fun t' => "" ∉ t'.names) ht fun t' hrun hmem => ?_
    rcases names_addPlaceholder hrun hmem with hname | hmem
    · exact (addPlaceholder_eq_ok_iff.1 hrun).1 hname.symm
    · exact ht hmem
  | setWrap name wrap =>
    cases hrun : t.setWrap? name wrap with
    | some t' =>
      rw [Template.edit, hrun]
      obtain ⟨slots, -, rfl⟩ := Option.map_eq_some_iff.1 hrun
      exact ht
    | none =>
      rw [Template.edit, hrun, h.dropEmptied_eq]
      exact ht
  | rename current new merge => cases he
  | transform f merge => cases he

/-- The edit leaves a placeholder of the template without a name: it is a renaming that succeeds and
makes one of the names empty. -/
def Unnames (t : Template ω) (e : Edit ω) : Prop :=
  (t.edit e).2 = none ∧ ∃ φ, e.renaming? = some φ ∧ ∃ n ∈ t.names, φ n = ""

/-- **What one edit does**: where all placeholders have names, one is without a name afterwards just
if the edit leaves it so. -/
theorem WellFormed.empty_mem_names_edit (h : t.WellFormed) (ht : "" ∉ t.names) (e : Edit ω) :
    "" ∈ (t.edit e).1.names ↔ t.Unnames e := by
  cases hφ : e.renaming? with
  | none =>
    refine iff_of_false (h.empty_not_mem_names_edit hφ ht) ?_
    rintro ⟨-, φ, hφ', -⟩
    cases hφ.symm.trans hφ'
  | some φ =>
    cases hend : (t.edit e).2 with
    | none =>
      rw [(h.relabels_edit hφ hend).mem_names h (h.edit e)]
      constructor
      · exact fun hn => ⟨hend, φ, hφ, hn⟩
      · rintro ⟨-, φ', hφ', hn⟩
        cases hφ.symm.trans hφ'
        exact hn
    | some failure =>
      rw [h.edit_of_failure hend]
      refine iff_of_false ht ?_
      rintro ⟨hok, -⟩
      cases hend.symm.trans hok

/-! ### Names along edits -/

/-- None of the edits leaves a placeholder without a name. -/
def NeverUnnamed (t : Template ω) : List (Edit ω) → Prop
  | [] => True
  | e :: es => ¬ t.Unnames e ∧ (t.edit e).1.NeverUnnamed es

/-- **Placeholders have names all along** just if none of the edits leaves one without. -/
theorem WellFormed.neverUnnamed_iff {es : List (Edit ω)} : ∀ {t : Template ω}, t.WellFormed →
    "" ∉ t.names → (t.NeverUnnamed es ↔ ∀ before, before <+: es → "" ∉ (t.edits before).names) := by
  induction es with
  | nil =>
    intro t h ht
    refine iff_of_true trivial fun before hbefore => ?_
    rw [List.prefix_nil.1 hbefore]
    exact ht
  | cons e es ih =>
    intro t h ht
    have hstep := h.empty_mem_names_edit ht e
    constructor
    · rintro ⟨he, hes⟩ before hbefore
      rcases List.prefix_cons_iff.1 hbefore with rfl | ⟨rest, rfl, hrest⟩
      · exact ht
      · exact (ih (h.edit e) (mt hstep.1 he)).1 hes rest hrest
    · intro hall
      have he : "" ∉ (t.edit e).1.names := hall [e] (List.prefix_append [e] es)
      refine ⟨mt hstep.2 he, (ih (h.edit e) he).2 fun before hbefore => ?_⟩
      exact hall (e :: before) (List.cons_prefix_cons.2 ⟨rfl, hbefore⟩)

end Template
end Stencil
