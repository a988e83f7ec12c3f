import Stencil.Proofs.Bound.Report
import Stencil.Proofs.Content.Faults

/-!
# Faults of a report

All that a report binds are values from the data, or nothing, and it is written to a sink that takes
all.  So a report ends by a fault in two ways only: the path of a placeholder has a position with
too many digits to be read, or a value cannot be shown.

## Main definitions

* `Value.Unshown` — the faults that a value ends in where it is shown.

## Main results

* `Content.Meets.unshown` — the fault that the content made of a value may meet.
* `Template.IsBare.upset_of_report` — what upsets a report.
-/

namespace Stencil

variable {ω : Type}

/-! ### Content of a report -/

theorem Escape.answers_html : Escape.html.Answers := fun _ => ⟨_, rfl⟩

theorem Content.isOrderly_ofValue (format : List Char) (v : Value) :
    (Content.ofValue format v : Tree ω).IsOrderly := by
  have hstrict : Codec.utf8.IsStrict := Charset.utf8.isStrict_codec
  unfold Content.ofValue
  split
  · exact .print v Encoding.codec_standard hstrict
  · exact .format _ _ Encoding.codec_standard hstrict

theorem Content.IsOrderly.inReport {c : Tree ω} (h : c.IsOrderly) (escape : Bool) :
    (Tree.inReport escape c).IsOrderly := by
  cases escape with
  | false => exact h
  | true => exact .escaper Escape.answers_html Encoding.codec_standard Charset.utf8.isStrict_codec h

section Content

variable [DigitLimit]

/-- A value is shown neither as text nor filled into its format, because of a fault. -/
inductive Value.Unshown (v : Value) : (format : List Char) → (f : Fault) → Prop where
  /-- It is shown as text. -/
  | text {f : Fault} (bad : v.printed .standard = .error f) : Unshown v [] f
  /-- It is shown in a format. -/
  | inFormat {format : List Char} {f : Fault} (asked : format ≠ [])
    (bad : formatted (.ofChars format) [v] .standard = .error f) : Unshown v format f

/-- The only fault of a value is that it is not shown. -/
theorem Content.Meets.unshown {format : List Char} {v : Value} {f : Fault}
    (h : (Content.ofValue format v : Tree ω).Meets (.fault f)) : v.Unshown format f := by
  unfold Content.ofValue at h
  split at h
  · next hnil =>
    rw [List.isEmpty_iff.1 hnil]
    refine .text ?_
    cases h with
    | digits text many => rw [Value.printed_of_text text, many]
    | text text few bad => rw [Value.printed_of_text text, few]; exact bad
  · next hformat =>
    refine .inFormat (mt List.isEmpty_iff.2 hformat) ?_
    cases h with
    | filled fill bad => rw [formatted, fill]; dsimp only; rw [bad]; rfl
    | number bad overflow => rw [formatted, bad]; exact if_pos overflow
    | untold bad other many => simp only [formatted, bad, other, many]; rfl

theorem Content.Meets.ofInReport {c : Tree ω} {escape : Bool} {f : Fault}
    (h : (Tree.inReport escape c).Meets (.fault f)) : c.Meets (.fault f) := by
  cases escape with
  | false => exact h
  | true =>
    cases h with
    | escaper h => exact h

theorem Tree.outcome_of_render {c : Tree ω} {runs : Runs} {f : Fault}
    (h : (Tree.render c runs).1 = .error (.fault f)) :
    (Tree.emit c Sink.buffer [] runs).outcome = .error f := by
  unfold Tree.render at h
  dsimp only at h
  split at h
  · next f' hf =>
    cases h
    exact hf
  · split at h <;> cases h

/-! ### Paths of a report -/

/-- A walk into data is no fault, so only the segments of a path are. -/
theorem Path.segments_of_resolve {added : List Adapter} {separator path : String} {data : Value}
    {f : Fault} (h : (resolve added separator path data : Except (Failure ω) Value) =
      .error (.fault f)) : segments separator path = .error f := by
  unfold resolve at h
  split at h
  · next g hg =>
    cases h
    exact hg
  · split at h <;> cases h

end Content

/-! ### Reports -/

/-- The bound template for a report, with nothing bound. -/
abbrev Template.unfilled (t : Template (Wrap Empty)) : Bound (Wrap Empty) (Tree (Wrap Empty)) :=
  .fresh t

/-- Wraps do not change which placeholders are looked up. -/
theorem Bound.Looks.ofDressed {t : Template (Wrap Empty)} {escape : Bool} {name : String}
    {format path : List Char}
    (h : (t.dressed escape).unfilled.Looks .standard name format path) :
    t.unfilled.Looks .standard name format path := by
  obtain ⟨hmem, hmarked, -⟩ := h
  exact ⟨(Template.names_dressed escape t) ▸ hmem, hmarked, .inl rfl⟩

section Reports

variable [DigitLimit] {t : Template (Wrap Empty)} {added : List Adapter} {data : Value}

/-- What a report binds is nothing, or the value that the data has for a placeholder. -/
inductive Template.Binds (t : Template (Wrap Empty)) (added : List Adapter) (data : Value)
    (escape : Bool) : Tree (Wrap Empty) → Prop where
  /-- Nothing is bound. -/
  | empty : Binds t added data escape (Tree.inReport escape .empty)
  /-- A value is bound. -/
  | value {name : String} {format : List Char} {v : Value}
    (reads : t.unfilled.Reads added .standard data name format (.ok v)) :
    Binds t added data escape (Tree.inReport escape (.ofValue format v))

/-- What filling binds in a report. -/
theorem Template.IsBare.binds_of_fills (h : t.IsBare) {escape : Bool}
    {bindings : List (Option (Tree (Wrap Empty)))} {missed : List String}
    (hfills : Bound.Fills added .standard data (t.dressed escape)
      (t.dressed escape).unfilled.bindings (t.dressed escape).names missed bindings)
    {c : Tree (Wrap Empty)} (hc : some c ∈ bindings) : t.Binds added data escape c := by
  obtain ⟨s, hs, hat⟩ := List.getElem_of_mem hc
  have hget : bindings[s]? = some (some c) := by rw [List.getElem?_eq_getElem hs, hat]
  rcases hfills.slot_cases s with ⟨n, -, format, v, hname, ⟨path, hlooks, hpath⟩, -, hbound⟩ | hold
  · cases hget.symm.trans hbound
    have hunder : Wrapping.under ((t.dressed escape).wrapAt s) (Content.ofValue format v) =
        Tree.inReport escape (.ofValue format v) := by
      rw [h.wrapAt_dressed]
      rw [Template.nameAt_dressed] at hname
      rw [hname]
      cases escape <;> rfl
    rw [hunder]
    exact .value ⟨path, hlooks.ofDressed, hpath⟩
  · -- nothing was bound before
    have hfresh : (t.dressed escape).unfilled.bindings[s]? =
        (List.replicate (t.dressed escape).slotCount none)[s]? := rfl
    rw [hget, hfresh, List.getElem?_replicate] at hold
    split at hold <;> cases hold

/-- What is bound in a report once nothing is at the slots without content, if that is asked for. -/
theorem Template.IsBare.exists_bindings (h : t.IsBare) {escape : Bool} (allowMissing : Bool)
    {bindings : List (Option (Tree (Wrap Empty)))}
    (hlen : bindings.length = (t.dressed escape).slotCount)
    (hbinds : ∀ c, some c ∈ bindings → t.Binds added data escape c) :
    ∃ bindings', (if allowMissing then Bound.fillEmpty ⟨t.dressed escape, bindings⟩
          else ⟨t.dressed escape, bindings⟩) =
        (⟨t.dressed escape, bindings'⟩ : Bound (Wrap Empty) (Tree (Wrap Empty))) ∧
      bindings'.length = (t.dressed escape).slotCount ∧
      ∀ c, some c ∈ bindings' → t.Binds added data escape c := by
  cases allowMissing with
  | false => exact ⟨bindings, rfl, hlen, hbinds⟩
  | true =>
    have hslots : ∀ s, s < (t.dressed escape).slotCount →
        bindings[s]? = some bindings[s]?.join := by
      intro s hs
      rw [List.getElem?_eq_getElem (hlen.symm ▸ hs)]
      rfl
    obtain ⟨bindings', hrun, hlen', hat⟩ := Bound.fillEmpty_ok hlen hslots
    refine ⟨bindings', hrun, hlen', fun c hc => ?_⟩
    obtain ⟨s, hs, hget⟩ := List.getElem_of_mem hc
    have hslot := hat s (hlen' ▸ hs)
    rw [List.getElem?_eq_getElem hs, hget, Option.some.injEq, h.wrapAt_dressed,
      Template.nameAt_dressed] at hslot
    cases hold : bindings[s]?.join with
    | some c' =>
      rw [hold, Option.some_or] at hslot
      cases hslot
      exact hbinds c (List.mem_of_getElem? (Option.join_eq_some_iff.1 hold))
    | none =>
      rw [hold, Option.none_or] at hslot
      cases hname : t.nameAt s with
      | none =>
        rw [hname] at hslot
        cases hslot
      | some n =>
        rw [hname] at hslot
        have hunder : c = Tree.inReport escape .empty := by
          cases escape <;> exact Option.some.inj hslot
        rw [hunder]
        exact .empty

/-- What a report binds is orderly. -/
theorem Template.Binds.isOrderly {escape : Bool} {c : Tree (Wrap Empty)}
    (h : t.Binds added data escape c) : c.IsOrderly := by
  cases h with
  | empty => exact Content.IsOrderly.empty.inReport _
  | value => exact (Content.isOrderly_ofValue _ _).inReport _

/-- **What upsets a report**: the path of a placeholder has too many digits to be read, or the value
that the data has for it cannot be shown. -/
theorem Template.IsBare.upset_of_report (h : t.IsBare) {key : String} {o : ReportOptions}
    {f : Empty → Tree (Wrap Empty)} {runs : Runs} {g : Fault}
    (hg : (t.report key added o data f runs).2.1 = .error (.fault g)) :
    (∃ name format path, t.unfilled.Looks .standard name format path ∧
      Path.segments Path.standardSeparator (String.ofList path) = .error g) ∨
    ∃ name format v, t.unfilled.Reads added .standard data name format (.ok v) ∧
      v.Unshown format g := by
  rw [h.wellFormed.report_eq, Template.report, if_neg Bool.false_ne_true] at hg
  have hwf := h.wellFormed.dressed o.escapeHtml
  have hlen : (t.dressed o.escapeHtml).unfilled.bindings.length =
      (t.dressed o.escapeHtml).slotCount := List.length_replicate
  dsimp only at hg
  rcases Bound.fill_run hwf hlen added .standard data with
    ⟨bindings, missed, hrun, hfills⟩ | ⟨n, -, format, e, b', ⟨path, hlooks, hpath⟩, hrun⟩
  · have hfill : (t.dressed o.escapeHtml).unfilled.fill added .standard data =
        (⟨t.dressed o.escapeHtml, bindings⟩, .ok missed.length) := hrun
    rw [hfill] at hg
    dsimp only at hg
    split at hg
    · cases hg
    · obtain ⟨bindings', hbindings, hlen', hbinds⟩ :=
        h.exists_bindings o.allowMissing (hfills.length.trans hlen) fun c => h.binds_of_fills hfills
      rw [hbindings, Bound.expand, Bound.render, Bound.toContent,
        expandBindings_eq_self fun c _ => Tree.expand_self f c] at hg
      have horderly : (Content.bound (t.dressed o.escapeHtml) bindings').IsOrderly :=
        .bound (Nat.le_of_eq hlen'.symm) fun c hc => (hbinds c hc).isOrderly
      -- the fault is met in what is bound at some slot
      have hmeets := Content.meets_of_fault horderly Sink.buffer_refuses
        (Tree.outcome_of_render hg)
      cases hmeets with
      | bound inside bound hmeets =>
        cases hbinds _ (List.mem_of_getElem? bound) with
        | empty => cases hmeets.ofInReport
        | value reads => exact .inr ⟨_, _, _, reads, hmeets.ofInReport.unshown⟩
  · have hfill : (t.dressed o.escapeHtml).unfilled.fill added .standard data = (b', .error e) :=
      hrun
    rw [hfill] at hg
    cases hg
    exact .inl ⟨n, format, path, hlooks.ofDressed, Path.segments_of_resolve hpath⟩

end Reports

end Stencil
