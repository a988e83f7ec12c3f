import Stencil.Bound.Report
import Stencil.Proofs.Source.Keeps

/-!
# The wraps of a report

A report that escapes puts a wrap on all placeholders of its template.  On a well-formed template
that never fails, and the wraps that were there before leave no trace.  So it does not matter
whether a template got the wrap once or several times.

## Main definitions

* `Template.everywhere` — a template with a wrap on all its placeholders.
* `Template.dressed` — a template that is to be escaped, or not.
* `Template.IsBare` — well-formed templates without wraps.

## Main results

* `Template.WellFormed.wrapNames` — the wrap is put on all placeholders.
* `Template.WellFormed.report_eq` — a report that escapes is one of the template with the wraps.
* `Catalog.parse_isBare` — templates that come from a source have no wraps.
-/

namespace Stencil

variable {ω ρ : Type}

namespace Template

/-! ### Wraps on all placeholders -/

/-- The wraps with `w` at some slots. -/
def wrapsAt (w : ω) (slots : List Nat) (wraps : List (Nat × ω)) : List (Nat × ω) :=
  slots.foldl (fun ws slot => withWrap ws (some w) slot) wraps

/-- Of the wraps that were there before only those at other slots are left. -/
theorem wrapsAt_congr (w : ω) (slots : List Nat) : ∀ {wraps wraps' : List (Nat × ω)},
    wraps.filter (·.1 ∉ slots) = wraps'.filter (·.1 ∉ slots) →
      wrapsAt w slots wraps = wrapsAt w slots wraps' := by
  induction slots with
  | nil =>
    intro wraps wraps' h
    have hall (ws : List (Nat × ω)) : ws.filter (·.1 ∉ []) = ws :=
      List.filter_eq_self.2 fun e _ => by simp
    rw [hall, hall] at h
    exact h
  | cons slot slots ih =>
    intro wraps wraps' h
    have hfirst (ws : List (Nat × ω)) : (withWrap ws (some w) slot).filter (·.1 ∉ slots) =
        [(slot, w)].filter (·.1 ∉ slots) ++ ws.filter (·.1 ∉ slot :: slots) := by
      rw [withWrap, ← List.singleton_append, List.filter_append, List.filter_filter]
      congr 1
      refine List.filter_congr fun e _ => ?_
      rw [← Bool.decide_and, decide_eq_decide, List.mem_cons, not_or, and_comm]
    refine ih ?_
    rw [hfirst, hfirst, h]

/-- The slots of a table, name by name. -/
def listedSlots (table : SlotTable) : List Nat := table.flatMap (·.2)

/-- The template with a wrap on all its placeholders, and no other wraps. -/
def everywhere (w : ω) (t : Template ω) : Template ω :=
  { t with wraps := wrapsAt w (listedSlots t.table) [] }

namespace WellFormed

variable {t : Template ω}

theorem mem_listedSlots (h : t.WellFormed) (s : Nat) :
    s ∈ listedSlots t.table ↔ (t.nameAt s).isSome = true := by
  rw [listedSlots, List.mem_flatMap]
  constructor
  · rintro ⟨⟨n, slots⟩, he, hs⟩
    have hl := lookup_eq_some_of_mem h.lists.nodup he
    rw [(h.lists.mem_iff_of_lookup hl s).2 hs]
    rfl
  · intro hs
    obtain ⟨n, hn⟩ := Option.isSome_iff_exists.1 hs
    obtain ⟨slots, hl⟩ := SlotTable.exists_lookup_of_mem_names (h.lists.mem_names hn)
    exact ⟨(n, slots), mem_of_lookup_eq_some hl, (h.lists.mem_iff_of_lookup hl s).1 hn⟩

/-- There are no wraps but at slots of the table. -/
theorem filter_wraps (h : t.WellFormed) : t.wraps.filter (·.1 ∉ listedSlots t.table) = [] := by
  refine List.filter_eq_nil_iff.2 fun e he => ?_
  have hwrap : (t.wrapAt e.1).isSome := by
    cases hw : t.wrapAt e.1 with
    | some w => rfl
    | none => exact absurd rfl (bne_iff_ne.1 (List.lookup_eq_none_iff.1 hw e he))
  simp [(h.mem_listedSlots e.1).2 (h.wrapped e.1 hwrap)]

/-- A wrap put on names one after the other is put on all their slots. -/
theorem wrapNames_of_subset (h : t.WellFormed) (w : ω) : ∀ (entries : SlotTable)
    (wraps : List (Nat × ω)), (∀ e ∈ entries, e ∈ t.table) →
    Template.wrapNames w entries.names { t with wraps } =
      ({ t with wraps := wrapsAt w (listedSlots entries) wraps }, .ok ()) := by
  intro entries
  induction entries with
  | nil => exact fun wraps _ => rfl
  | cons e entries ih =>
    obtain ⟨n, slots⟩ := e
    intro wraps hsub
    have hl := lookup_eq_some_of_mem h.lists.nodup (hsub _ List.mem_cons_self)
    have hset : ({ t with wraps } : Template ω).setWrap? n (some w) =
        some { t with wraps := wrapsAt w slots wraps } := by
      have hslots : ({ t with wraps } : Template ω).slots? n = some slots :=
        (h.slots?_eq_lookup n).trans hl
      rw [setWrap?, hslots]
      rfl
    rw [SlotTable.names_cons, Template.wrapNames, hset]
    dsimp only
    rw [ih _ fun e he => hsub e (List.mem_cons_of_mem _ he)]
    simp only [wrapsAt, listedSlots, List.flatMap_cons, List.foldl_append]

/-- **A wrap is put on all placeholders**, and what wraps there were does not matter. -/
theorem wrapNames (h : t.WellFormed) (w : ω) :
    t.wrapNames w t.names = (t.everywhere w, .ok ()) := by
  have hwraps : wrapsAt w (listedSlots t.table) t.wraps = wrapsAt w (listedSlots t.table) [] :=
    wrapsAt_congr w _ (by rw [h.filter_wraps, List.filter_nil])
  rw [everywhere, ← hwraps]
  exact h.wrapNames_of_subset w t.table t.wraps fun _ he => he

theorem wrapAt_everywhere (h : t.WellFormed) (w : ω) (s : Nat) :
    (t.everywhere w).wrapAt s = if (t.nameAt s).isSome then some w else none := by
  rw [wrapAt, everywhere, wrapsAt, lookup_foldl_withWrap]
  simp only [h.mem_listedSlots, List.lookup_nil]

theorem everywhere (h : t.WellFormed) (w : ω) : (t.everywhere w).WellFormed where
  lists := h.lists
  inRange := h.inRange
  interior := h.interior
  wrapped s hs := by
    rw [h.wrapAt_everywhere] at hs
    split at hs
    · next hn => exact hn
    · cases hs
  lastNamed := h.lastNamed

end WellFormed

/-! ### Reports of dressed templates -/

/-- The template with the wrap for HTML on all placeholders if it is to be escaped, and as it is
otherwise. -/
def dressed (escape : Bool) (t : Template (Wrap ρ)) : Template (Wrap ρ) :=
  if escape then t.everywhere .html else t

theorem dressed_dressed (escape more : Bool) (t : Template (Wrap ρ)) :
    (t.dressed escape).dressed more = t.dressed (more || escape) := by
  cases escape <;> cases more <;> rfl

variable {t : Template (Wrap ρ)}

theorem WellFormed.dressed (h : t.WellFormed) (escape : Bool) : (t.dressed escape).WellFormed := by
  cases escape
  · exact h
  · exact h.everywhere .html

@[simp] theorem fragments_dressed (escape : Bool) (t : Template (Wrap ρ)) :
    (t.dressed escape).fragments = t.fragments := by cases escape <;> rfl

@[simp] theorem nameAt_dressed (escape : Bool) (t : Template (Wrap ρ)) (s : Nat) :
    (t.dressed escape).nameAt s = t.nameAt s := by cases escape <;> rfl

@[simp] theorem names_dressed (escape : Bool) (t : Template (Wrap ρ)) :
    (t.dressed escape).names = t.names := by cases escape <;> rfl

/-- **A report that escapes is one of the template with the wraps.** -/
theorem WellFormed.report_eq [DigitLimit] (h : t.WellFormed) (key : String) (added : List Adapter)
    (o : ReportOptions) (data : Value) (f : ρ → Tree (Wrap ρ)) (runs : Runs) :
    t.report key added o data f runs =
      (t.dressed o.escapeHtml).report key added { o with escapeHtml := false } data f runs := by
  obtain ⟨allowMissing, escape⟩ := o
  cases escape with
  | false => rfl
  | true =>
    rw [report, report, Template.dressed, if_pos rfl, if_pos rfl, h.wrapNames]
    rfl

/-! ### Templates without wraps -/

/-- The template is well-formed and has no wraps. -/
structure IsBare (t : Template ω) : Prop where
  /-- It is well-formed. -/
  wellFormed : t.WellFormed
  /-- It has no wraps. -/
  wraps : t.wraps = []

theorem bareBuilding_isBare : BareBuilding (IsBare (ω := ω)) where
  blank name := ⟨wellFormed_blank name, rfl⟩
  addStatic data h := ⟨h.wellFormed.addStatic data, by rw [wraps_addStatic, h.wraps]⟩
  addPlaceholder {t t' name} h ht := by
    refine ⟨h.wellFormed.addPlaceholder ht, ?_⟩
    obtain ⟨-, rfl⟩ := addPlaceholder_eq_ok_iff.1 ht
    exact (wraps_withRoom t).trans h.wraps

/-- The slots of a dressed template all have the same wrap, or none. -/
theorem IsBare.wrapAt_dressed (h : t.IsBare) (escape : Bool) (s : Nat) :
    (t.dressed escape).wrapAt s =
      if escape ∧ (t.nameAt s).isSome then some Wrap.html else none := by
  cases escape with
  | false => simp [dressed, wrapAt, h.wraps]
  | true => simpa [dressed] using h.wellFormed.wrapAt_everywhere Wrap.html s

end Template

/-- Templates that come from a source alone have no wraps. -/
theorem Catalog.parse_isBare (m : Markup) (root : String) (source : Lines) :
    (Catalog.parse ([] : Catalog ω) m root source).1.All Template.IsBare :=
  (Catalog.parse_keeps Template.bareBuilding_isBare (fun e he => by cases he) m root source).1

end Stencil
