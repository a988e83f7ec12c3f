import Stencil.Proofs.Bound.Keeps
import Stencil.Proofs.Source.Keeps

/-!
# Where templates come from

Templates come from edits, from sources and from the fixation of bound templates.  Parsing and
fixation only build, so edits can build every template that they make, and what holds of templates
after any edits holds of all of them.

## Main definitions

* `Template.IsProduced` — the templates that edits, sources and fixation make.
* `Template.Consistent` — what can be asked of a template fits together.

## Main results

* `Template.IsProduced.isBuilt` — edits can build every produced template.
* `Template.consistent_of_isProduced` — what can be asked of a produced template fits together, and
  without placeholders its content is all that was added to it.
-/

namespace Stencil

variable {ω : Type}

namespace Template

/-- The templates that edits, sources and fixation make. -/
inductive IsProduced : Template ω → Prop where
  /-- A template with nothing in it. -/
  | blank (name : String) : IsProduced (blank name)
  /-- What an edit makes of one, whether or not it fails. -/
  | edited {t : Template ω} (h : IsProduced t) (e : Edit ω) : IsProduced (t.edit e).1
  /-- What parsing leaves in a catalogue of such templates, whether or not it fails. -/
  | parsed {c : Catalog ω} {m : Markup} {root : String} {source : Lines}
      {e : String × Template ω} (hc : ∀ e ∈ c, IsProduced e.2)
      (he : e ∈ (c.parse m root source).1) : IsProduced e.2
  /-- What an error of parsing tells of. -/
  | reported {c : Catalog ω} {m : Markup} {root : String} {source : Lines} {failure : Failure ω}
      {e : String × Template ω} (hc : ∀ e ∈ c, IsProduced e.2)
      (hf : (c.parse m root source).2 = some failure) (he : e ∈ failure.templates) :
      IsProduced e.2
  /-- What a bound template is fixated to. -/
  | fixated {b : Bound ω (Content ω Empty)} {separator : String} {runs : Runs} {t : Template ω}
      (ht : (b.fixate separator runs).1 = .ok (some t)) : IsProduced t

/-- However a template was produced, edits can build it. -/
theorem IsProduced.isBuilt {t : Template ω} (h : t.IsProduced) : t.IsBuilt := by
  induction h with
  | blank name => exact building_isBuilt.blank name
  | edited h e ih => exact ih.edit e
  | parsed hc he ih => exact (Catalog.parse_keeps building_isBuilt.bare ih _ _ _).1 _ he
  | reported hc hf he ih => exact (Catalog.parse_keeps building_isBuilt.bare ih _ _ _).2 _ hf _ he
  | fixated ht => exact Bound.fixate_keeps building_isBuilt ht

theorem IsProduced.edits (es : List (Edit ω)) :
    ∀ {t : Template ω}, t.IsProduced → (t.edits es).IsProduced := by
  induction es with
  | nil => exact id
  | cons e es ih => exact fun h => ih (h.edited e)

/-- What can be asked of a template fits together. -/
structure Consistent (t : Template ω) : Prop where
  /-- A slot has a name just if it is among the slots of that name. -/
  nameAt_iff : ∀ s n, t.nameAt s = some n ↔ ∃ slots, t.slots? n = some slots ∧ s ∈ slots
  /-- No name is listed twice. -/
  names_nodup : t.names.Nodup
  /-- Every name has slots, in strictly ascending order, and they are slots of the template. -/
  slots : ∀ n ∈ t.names, ∃ slots, t.slots? n = some slots ∧ slots ≠ [] ∧
    slots.Pairwise (· < ·) ∧ ∀ s ∈ slots, s ≤ t.fragments.length
  /-- Every slot between two fragments has a name. -/
  interior : ∀ s, 0 < s → s < t.fragments.length → (t.nameAt s).isSome
  /-- Only slots with a name have a wrap. -/
  wrapAt : ∀ s, (t.wrapAt s).isSome → (t.nameAt s).isSome

theorem WellFormed.consistent {t : Template ω} (h : t.WellFormed) : t.Consistent where
  nameAt_iff s n := by
    rw [h.lists.mem_iff, h.slots?_eq_lookup]
    cases t.table.lookup n with
    | none => simp
    | some slots => simp
  names_nodup := h.lists.nodup
  slots n hn := by
    obtain ⟨slots, hl⟩ := SlotTable.exists_lookup_of_mem_names hn
    refine ⟨slots, by rw [h.slots?_eq_lookup, hl], h.lists.nonempty hl, h.lists.ascending hl, ?_⟩
    intro s hs
    exact h.inRange s (by rw [(h.lists.mem_iff_of_lookup hl s).2 hs]; rfl)
  interior := h.interior
  wrapAt := h.wrapped

/-- **Produced templates fit together.**  What can be asked of a template is consistent, however it
was produced.  So no template without placeholders is ever found to be scattered; edits can build
it; and if it has no placeholders, its content is all that was added by whatever edits lead to
it. -/
theorem consistent_of_isProduced {t : Template ω} (h : t.IsProduced) :
    t.Consistent ∧
      (∀ name count, t.staticBytes ≠ .error (.scattered name count)) ∧
      (∃ name es, t = (Template.blank name).edits es) ∧
      ∀ name es, t = (Template.blank name).edits es → t.isStatic = true →
        t.staticBytes = .ok (some (es.flatMap Edit.added)) := by
  have hwf := h.isBuilt.wellFormed
  have hstatic := hwf.staticBytes
  refine ⟨hwf.consistent, ?_, h.isBuilt, ?_⟩
  · intro name count hfault
    rw [hstatic] at hfault
    cases hfault
  · rintro name es rfl hs
    rw [hstatic, if_pos hs, flatten_fragments_edits]
    rfl

/-- Two placeholders side by side, one of them with a wrap, become one that has both slots; the
edits that fail in between change nothing. -/
theorem consistent_of_isProduced_merged :
    let t : Template (Wrap Empty) := (Template.blank "page").edits
      [.addPlaceholder "head" none, .addPlaceholder "" none, .addPlaceholder "body" (some .html),
        .rename "head" "body" false, .rename "head" "body" true]
    t.table = [("body", [0, 1])] ∧ t.fragments = [[]] ∧ t.Consistent :=
  ⟨by decide +kernel, by decide +kernel,
    (consistent_of_isProduced (IsProduced.edits _ (.blank "page"))).1⟩

end Template
end Stencil
