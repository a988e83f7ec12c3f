import Stencil.Proofs.Bound.Filling
import Stencil.Proofs.Path.Joined

/-!
# What filling binds

Filling goes through the slot table, and each placeholder is looked up in the data by itself.  So
afterwards a slot has content just if the data has a value for its name; and if a path does not fit
the data, nothing comes of the whole.

## Main definitions

* `Bound.reading` — what the data has for a placeholder.
* `Bound.content?` — that as content.
* `Bound.IsMissed` — placeholders that are counted as missed.

## Main results

* `Bound.fill_fresh` — what a fresh bound template has at its slots after filling.
* `Bound.fill_fails` — filling fails if a path does not fit the data.
-/

namespace Stencil

namespace Bound

variable {ω : Type} {added : List Adapter} {o : FillOptions} {data : Value} {t : Template ω}

/-- What the data has for a placeholder: nothing if its name has not the marker or its path leads to
no value, and otherwise the format that its name tells, and the value. -/
def reading (added : List Adapter) (o : FillOptions) (data : Value) (name : String) :
    Except TypeMismatch (Option (List Char × Value)) :=
  match spec? o.marker name with
  | none => .ok none
  | some spec =>
    (Path.valueAt added o.separator (String.ofList (Path.splitSpec spec).2) data).map fun v =>
      if v.isSome then some ((Path.splitSpec spec).1, v) else none

/-- The content that the data has for a placeholder. -/
def content? (added : List Adapter) (o : FillOptions) (data : Value) (name : String) :
    Option (Tree ω) :=
  match reading added o data name with
  | .ok (some (format, v)) => some (.ofValue format v)
  | _ => none

/-- The placeholder has the marker, but the data has no value for it. -/
def IsMissed (added : List Adapter) (o : FillOptions) (data : Value) (name : String) : Prop :=
  (spec? o.marker name).isSome = true ∧ reading added o data name = .ok none

/-! ### What is read -/

section Reading

variable {κ : Type} {b : Bound ω κ} {name : String}

/-- If all may be overwritten, what filling reads for a placeholder is what the data has for it. -/
theorem reading_cases (ho : o.overwrite = true) (hsep : o.separator.isEmpty = false)
    (hname : name ∈ b.template.names) (added : List Adapter) (data : Value) :
    (spec? o.marker name = none ∧ reading added o data name = .ok none ∧
      ∀ format r, ¬ b.Reads added o data name format r) ∨
    (∃ format v, (spec? o.marker name).isSome = true ∧
      reading added o data name = .ok (if v.isSome then some (format, v) else none) ∧
      b.Reads added o data name format (.ok v)) ∨
    ∃ format e, reading added o data name = .error e ∧
      b.Reads added o data name format (.error (.path e)) := by
  rw [reading]
  cases hspec : spec? o.marker name with
  | none =>
    refine .inl ⟨rfl, rfl, ?_⟩
    rintro format r ⟨path, hlooks, -⟩
    rw [looks_iff, hspec] at hlooks
    cases hlooks.2.1
  | some spec =>
    have hlooks : b.Looks o name (Path.splitSpec spec).1 (Path.splitSpec spec).2 :=
      looks_iff.2 ⟨hname, by rw [hspec]; rfl, .inl ho⟩
    have hresolve := Path.resolve_eq (ω := ω) added hsep
      (String.ofList (Path.splitSpec spec).2) data
    dsimp only
    cases hvalue : Path.valueAt added o.separator (String.ofList (Path.splitSpec spec).2) data with
    | ok v =>
      rw [hvalue] at hresolve
      exact .inr (.inl ⟨_, v, rfl, rfl, _, hlooks, hresolve⟩)
    | error e =>
      rw [hvalue] at hresolve
      exact .inr (.inr ⟨_, e, rfl, _, hlooks, hresolve⟩)

/-- The placeholders that are counted are those whose path leads to no value. -/
theorem isMissed_iff (ho : o.overwrite = true) (hsep : o.separator.isEmpty = false)
    (hname : name ∈ b.template.names) : IsMissed added o data name ↔
      ∃ format, b.Reads added o data name format (.ok .none) := by
  rcases reading_cases ho hsep hname added data with
    ⟨hspec, hreading, hnone⟩ | ⟨format, v, hspec, hreading, hread⟩ | ⟨format, e, hreading, hread⟩
  · exact iff_of_false (by simp [IsMissed, hspec]) fun ⟨format, hread⟩ => hnone format _ hread
  · rw [IsMissed, hspec, hreading, and_iff_right rfl]
    by_cases hv : v = .none
    · subst hv
      exact iff_of_true rfl ⟨format, hread⟩
    · rw [if_pos (Value.isSome_iff.2 hv)]
      refine iff_of_false (by simp) ?_
      rintro ⟨format', hread'⟩
      cases (hread.unique hread').2
      exact hv rfl
  · refine iff_of_false (by simp [IsMissed, hreading]) ?_
    rintro ⟨format', hread'⟩
    cases (hread.unique hread').2

/-- The paths that do not fit are those that filling fails at. -/
theorem exists_reading_error (ho : o.overwrite = true) (hsep : o.separator.isEmpty = false)
    {format : List Char} {e : Failure ω} (hread : b.Reads added o data name format (.error e)) :
    ∃ e', e = .path e' ∧ reading added o data name = .error e' := by
  rcases reading_cases ho hsep hread.mem added data with
    ⟨-, -, hnone⟩ | ⟨format', v, -, -, hread'⟩ | ⟨format', e', hreading, hread'⟩
  · exact absurd hread (hnone format _)
  · cases (hread.unique hread').2
  · cases (hread.unique hread').2
    exact ⟨e', rfl, hreading⟩

end Reading

/-! ### A fresh bound template -/

variable [Wrapping ω (Tree ω)]

/-- **What filling binds.**  If every path fits the data, a fresh bound template then has at each
named slot what the data has for the name, under the wrap of the slot; and no placeholder was missed
if the result says so. -/
theorem fill_fresh (h : t.WellFormed) (ho : o.overwrite = true)
    (hsep : o.separator.isEmpty = false)
    (hread : ∀ n ∈ t.names, ∀ e, reading added o data n ≠ .error e) :
    ∃ bindings missed, (fresh t : Bound ω (Tree ω)).fill added o data =
        (⟨t, bindings⟩, .ok missed) ∧ bindings.length = t.slotCount ∧
      (missed = 0 ↔ ∀ n ∈ t.names, ¬ IsMissed added o data n) ∧
      ∀ s, s < t.slotCount → bindings[s]? =
        some (((t.nameAt s).bind (content? added o data)).map (Tree.under (t.wrapAt s))) := by
  have hlen : (List.replicate t.slotCount (none : Option (Tree ω))).length = t.slotCount :=
    List.length_replicate
  rcases fill_run h hlen added o data with
    ⟨bindings, missed, hrun, hfills⟩ | ⟨n, hn, format, e, b', hfails, -⟩
  · refine ⟨bindings, missed.length, hrun, hfills.length.trans hlen, ?_, fun s hs => ?_⟩
    · rw [List.length_eq_zero_iff, List.eq_nil_iff_forall_not_mem]
      refine forall_congr' fun n => ?_
      rw [hfills.mem_missed, not_and]
      exact imp_congr_right fun hn => not_congr (isMissed_iff ho hsep hn).symm
    · have hold : (List.replicate t.slotCount (none : Option (Tree ω)))[s]? = some none := by
        rw [List.getElem?_replicate, if_pos hs]
      cases hname : t.nameAt s with
      | none =>
        have hkept := hfills.kept s fun n _ format v hs => by cases hname.symm.trans hs
        rw [hkept, hold]
        rfl
      | some n =>
        have hn : n ∈ t.names := h.lists.mem_names hname
        rw [Option.bind_some, content?]
        rcases reading_cases (b := fresh t) ho hsep hn added data with
          ⟨-, hreading, hnone⟩ | ⟨format, v, -, hreading, hreads⟩ | ⟨format, e, hreading, -⟩
        · rw [hreading, hfills.kept_of_name hname fun _ _ _ hreads => absurd hreads (hnone _ _),
            hold]
          rfl
        · rw [hreading]
          by_cases hv : v = .none
          · subst hv
            rw [hfills.kept_of_name hname ?_, hold]
            · rfl
            · intro _ format' v hreads'
              cases (hreads.unique hreads').2
              rfl
          · rw [hfills.bound n hn s format v hname hreads hv, if_pos (Value.isSome_iff.2 hv)]
            rfl
        · exact absurd hreading (hread n hn e)
  · obtain ⟨e', -, hreading⟩ := exists_reading_error ho hsep hfails
    exact absurd hreading (hread n hn e')

/-- Filling fails if a path does not fit the data. -/
theorem fill_fails (h : t.WellFormed) (ho : o.overwrite = true)
    (hsep : o.separator.isEmpty = false)
    (hread : ∃ n ∈ t.names, ∃ e, reading added o data n = .error e) :
    ∃ b e, (fresh t : Bound ω (Tree ω)).fill added o data = (b, .error (.path e)) := by
  rcases fill_run h List.length_replicate added o data with
    ⟨bindings, missed, -, hfills⟩ | ⟨n, hn, format, e, b', hfails, hrun⟩
  · obtain ⟨n, hn, e, hreading⟩ := hread
    rcases reading_cases (b := fresh t) ho hsep hn added data with
      ⟨-, hreading', -⟩ | ⟨format, v, -, hreading', -⟩ | ⟨format, e, -, hreads⟩
    · cases hreading.symm.trans hreading'
    · cases hreading.symm.trans hreading'
    · exact absurd hreads (hfills.fits n hn format _)
  · obtain ⟨e', rfl, -⟩ := exists_reading_error ho hsep hfails
    exact ⟨b', e', hrun⟩

end Bound
end Stencil
