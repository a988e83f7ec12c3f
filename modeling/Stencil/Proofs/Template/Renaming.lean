import Stencil.Proofs.Template.Rename

/-!
# What a renaming leaves alone

A renaming, of one placeholder or of all at once, only changes the names at the slots.  So whoever
reads a template slot by slot sees the same template under other names.  And it does not matter
whether a template is built under the old names and renamed afterwards, or built under the new names
at once: the table has its names in the order of their first occurrences in either case.

## Main definitions

* `Edit.renaming?` — what an edit makes of every name, if it is a renaming.
* `Template.Relabels` — one template is another one under other names.

## Main results

* `Template.WellFormed.relabels_edit` — a renaming that succeeds changes names only.
* `Template.WellFormed.ext` — what decides a well-formed template.
* `Template.WellFormed.renamed_addStatic`, `Template.WellFormed.addPlaceholder_renamed` — building
  commutes with renaming.
-/

namespace Stencil

variable {ω : Type}

/-- What an edit makes of every name, if it is a renaming. -/
def Edit.renaming? : Edit ω → Option (String → String)
  | .rename current new _ => some fun n => if n = current then new else n
  | .transform f _ => some (Template.newName f)
  | .addStatic _ | .addText _ _ | .addPlaceholder _ _ | .setWrap _ _ => none

namespace Template

variable {t t' : Template ω} {φ : String → String}

/-! ### Other names -/

/-- The template `t'` is `t` with the names at the slots replaced, whatever its table. -/
structure Relabels (φ : String → String) (t t' : Template ω) : Prop where
  /-- The template keeps its own name. -/
  name : t'.name = t.name
  /-- The fragments stay. -/
  fragments : t'.fragments = t.fragments
  /-- Every slot has the name made of its old one. -/
  nameAt : ∀ s, t'.nameAt s = (t.nameAt s).map φ

theorem relabels_renamed (φ : String → String) (t : Template ω) : Relabels φ t (t.renamed φ) :=
  ⟨rfl, rfl, nameAt_renamed φ t⟩

theorem orKept_of_none {ε : Type} {toFailure : ε → Failure ω} {result : Except ε (Template ω)}
    (h : (t.orKept toFailure result).2 = none) : result = .ok (t.orKept toFailure result).1 := by
  cases result with
  | ok t' => rfl
  | error e => cases h

/-- **A renaming that succeeds changes names only.** -/
theorem WellFormed.relabels_edit (h : t.WellFormed) {e : Edit ω} (he : e.renaming? = some φ)
    (hok : (t.edit e).2 = none) : Relabels φ t (t.edit e).1 := by
  cases e with
  | rename current new merge =>
    cases he
    have hrun := orKept_of_none hok
    refine ⟨name_rename hrun, fragments_rename hrun, fun s => (nameAt_rename hrun s).trans ?_⟩
    cases t.nameAt s with
    | none => rfl
    | some n => simp only [Option.some.injEq, Option.map_some, apply_ite some]
  | transform f merge =>
    cases he
    obtain ⟨-, -, hrenamed⟩ := h.transform_eq_ok_iff.1 (orKept_of_none hok)
    exact hrenamed ▸ relabels_renamed _ t
  | addStatic data => cases he
  | addText text encoding => cases he
  | addPlaceholder name wrap => cases he
  | setWrap name wrap => cases he

/-- A template has no placeholders if it has no names. -/
theorem isStatic_iff_names : t.isStatic = true ↔ t.names = [] := by
  rw [isStatic, List.isEmpty_iff, names, SlotTable.names, List.map_eq_nil_iff]

/-- A template under other names has placeholders if it had some before. -/
@[simp] theorem isStatic_renamed (φ : String → String) (t : Template ω) :
    (t.renamed φ).isStatic = t.isStatic := by
  rw [Bool.eq_iff_iff, isStatic_iff_names, isStatic_iff_names, names_renamed]
  cases t.names with
  | nil => exact Iff.rfl
  | cons n names => simp [List.eraseDups_cons]

/-! ### Building under other names -/

/-- **What decides a well-formed template**: the slots of the names can be read off the rest. -/
theorem WellFormed.ext (h : t.WellFormed) (h' : t'.WellFormed) (hname : t.name = t'.name)
    (hfragments : t.fragments = t'.fragments) (hslotNames : t.slotNames = t'.slotNames)
    (hwraps : t.wraps = t'.wraps) (hnames : t.names = t'.names) : t = t' := by
  rw [← h.relisted_names, ← h'.relisted_names, ← hnames]
  generalize t.names = names
  obtain ⟨name, fragments, slotNames, table, wraps⟩ := t
  obtain ⟨name', fragments', slotNames', table', wraps'⟩ := t'
  cases hname
  cases hfragments
  cases hslotNames
  cases hwraps
  rfl

@[simp] theorem endsNamed_renamed (φ : String → String) (t : Template ω) :
    (t.renamed φ).endsNamed = t.endsNamed := by
  rw [endsNamed, nameAt_renamed, Option.isSome_map]
  rfl

@[simp] theorem renamed_blank (φ : String → String) (name : String) :
    (blank name : Template ω).renamed φ = blank name := rfl

theorem names_addStatic (t : Template ω) (data : Bytes) : (t.addStatic data).names = t.names := by
  rw [names, table_addStatic]
  rfl

theorem WellFormed.renamed_addStatic (h : t.WellFormed) (φ : String → String) (data : Bytes) :
    (t.addStatic data).renamed φ = (t.renamed φ).addStatic data := by
  refine ((h.addStatic data).renamed φ).ext ((h.renamed φ).addStatic data) ?_ ?_ ?_ ?_ ?_
  · exact (name_addStatic t data).trans (name_addStatic (t.renamed φ) data).symm
  · show (t.addStatic data).fragments = _
    by_cases hend : t.endsNamed
    · rw [fragments_addStatic_of_endsNamed hend,
        fragments_addStatic_of_endsNamed (by simpa using hend)]
      rfl
    · rw [fragments_addStatic_of_not_endsNamed hend,
        fragments_addStatic_of_not_endsNamed (by simpa using hend)]
      rfl
  · rw [slotNames_addStatic]
    show (t.addStatic data).slotNames.map _ = _
    rw [slotNames_addStatic]
    rfl
  · rw [wraps_addStatic]
    show (t.addStatic data).wraps = _
    rw [wraps_addStatic]
    rfl
  · rw [names_renamed, names_addStatic, names_addStatic, names_renamed]

theorem names_nameLast (t : Template ω) (name : String) (wrap : Option ω) :
    (t.nameLast name wrap).names = if name ∈ t.names then t.names else t.names ++ [name] := by
  show (t.table.push name t.fragments.length).names = _
  rw [SlotTable.push_eq_set, SlotTable.names_set]
  rfl

theorem WellFormed.renamed_nameLast (h : t.WellFormed) (hend : ¬ t.endsNamed)
    (φ : String → String) (name : String) (wrap : Option ω) :
    (t.nameLast name wrap).renamed φ = (t.renamed φ).nameLast (φ name) wrap := by
  have hend' : ¬ (t.renamed φ).endsNamed := by simpa using hend
  refine ((h.nameLast hend name wrap).renamed φ).ext ((h.renamed φ).nameLast hend' _ wrap)
    rfl rfl ?_ rfl ?_
  · simp [Template.nameLast, Template.renamed, relisted]
  · -- a name that was there becomes one that is there, and a new one may become one
    rw [names_renamed, names_nameLast, names_nameLast, names_renamed]
    simp only [List.mem_eraseDups]
    by_cases hname : name ∈ t.names
    · rw [if_pos hname, if_pos (List.mem_map_of_mem hname)]
    · rw [if_neg hname, List.map_append, List.map_singleton, eraseDups_concat]

/-- **A placeholder may be renamed before or after it is added**, unless a name is empty. -/
theorem WellFormed.addPlaceholder_renamed (h : t.WellFormed) {name : String} (hname : name ≠ "")
    (hnew : φ name ≠ "") (wrap : Option ω) :
    ∃ u, t.addPlaceholder name wrap = .ok u ∧
      (t.renamed φ).addPlaceholder (φ name) wrap = .ok (u.renamed φ) := by
  have hroom : t.withRoom.renamed φ = (t.renamed φ).withRoom := by
    rw [Template.withRoom, Template.withRoom, endsNamed_renamed]
    split
    · exact h.renamed_addStatic φ []
    · rfl
  refine ⟨_, addPlaceholder_eq_ok_iff.2 ⟨hname, rfl⟩, addPlaceholder_eq_ok_iff.2 ⟨hnew, ?_⟩⟩
  rw [← hroom, h.withRoom.renamed_nameLast h.not_endsNamed_withRoom]

/-- A placeholder adds no other name than its own. -/
theorem names_addPlaceholder {u : Template ω} {name : String} {wrap : Option ω}
    (hu : t.addPlaceholder name wrap = .ok u) {n : String} (hn : n ∈ u.names) :
    n = name ∨ n ∈ t.names := by
  obtain ⟨-, rfl⟩ := addPlaceholder_eq_ok_iff.1 hu
  have hsame : t.withRoom.names = t.names := congrArg SlotTable.names (table_withRoom t)
  rw [names_nameLast, hsame] at hn
  split at hn
  · exact .inr hn
  · rcases List.mem_append.1 hn with hn | hn
    · exact .inr hn
    · exact .inl (List.mem_singleton.1 hn)

end Template
end Stencil
