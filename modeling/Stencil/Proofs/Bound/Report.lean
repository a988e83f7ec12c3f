import Stencil.Proofs.Bound.Fill
import Stencil.Proofs.Bound.Wraps
import Stencil.Proofs.Content.References
import Stencil.Proofs.Content.Shown

/-!
# What a report writes

A report of a template that comes from a source is made up of the template's fragments and, at each
named slot between them, of the bytes of the value that the data has for the name.  It comes about
just if every path fits the data, every placeholder is covered or may be missed, and every value can
be shown.

## Main definitions

* `weave` — fragments with bytes at the slots around them.
* `Bound.reported?` — the content of a placeholder in a report.

## Main results

* `Template.IsBare.report_ok_iff` — a report has bytes just if the filled template writes them.
* `Catalog.report_eq_ok_iff` — what a report has to do with the data.
-/

namespace Stencil

variable {ω : Type}

/-! ### Slots and fragments -/

/-- The fragments from `slot` on, with bytes at the slots around them. -/
def weave (at_ : Nat → Bytes) : (slot : Nat) → List Bytes → Bytes
  | slot, [] => at_ slot
  | slot, f :: rest => at_ slot ++ f ++ weave at_ (slot + 1) rest

namespace Written

variable (at_ : Nat → Written)

/-- If all is written, the bytes are those of the slots and the fragments. -/
theorem bytes_weave : ∀ (fragments : List Bytes) (slot : Nat),
    (Written.weave at_ slot fragments).whole = true →
      (Written.weave at_ slot fragments).bytes =
        Stencil.weave (fun s => (at_ s).bytes) slot fragments := by
  intro fragments
  induction fragments with
  | nil => exact fun slot _ => rfl
  | cons f fragments ih =>
    intro slot h
    have hall : (all f).whole = true := rfl
    rw [weave, whole_andThen, whole_andThen, hall, Bool.true_and, Bool.and_eq_true] at h
    rw [weave, bytes_andThen h.1, bytes_andThen hall, ih _ h.2, ← List.append_assoc]
    rfl

end Written

/-! ### Bindings of a report -/

namespace Bound

variable {added : List Adapter} {data : Value}

/-- The content of a placeholder in a report: what the data has for it, or nothing at all if that
may be missed. -/
def reported? (added : List Adapter) (data : Value) (allowMissing : Bool) (name : String) :
    Option (Tree ω) :=
  (content? added .standard data name).or (if allowMissing then some .empty else none)

variable [Wrapping ω (Tree ω)] {t : Template ω}

/-- What is bound at the slots of a report. -/
def reportedAt (added : List Adapter) (data : Value) (allowMissing : Bool) (t : Template ω)
    (slot : Nat) : Option (Tree ω) :=
  ((t.nameAt slot).bind (reported? added data allowMissing)).map (Tree.under (t.wrapAt slot))

/-- Nothing is bound at the named slots without content. -/
theorem fillEmpty_ok {content : Nat → Option (Tree ω)} {bindings : List (Option (Tree ω))}
    (hlen : bindings.length = t.slotCount)
    (hat : ∀ s, s < t.slotCount → bindings[s]? = some (content s)) :
    ∃ bindings', (⟨t, bindings⟩ : Bound ω (Tree ω)).fillEmpty = ⟨t, bindings'⟩ ∧
      bindings'.length = t.slotCount ∧ ∀ s, s < t.slotCount → bindings'[s]? =
        some ((content s).or ((t.nameAt s).map fun _ => Tree.under (t.wrapAt s) .empty)) := by
  have hvacant (s : Nat) :
      s ∈ t.namedSlots.filter (fun slot => (bindings[slot]?.join).isNone) ↔
        s < t.slotCount ∧ (t.nameAt s).isSome = true ∧ bindings[s]?.join = none := by
    rw [List.mem_filter, Template.namedSlots, List.mem_filter, List.mem_range, and_assoc,
      Option.isNone_iff_eq_none]
  obtain ⟨bindings', n, hrun, hlen', hbound⟩ := bindAt_ofNat (.empty : Tree ω) t
    (t.namedSlots.filter fun slot => (bindings[slot]?.join).isNone) 0 bindings
    (fun s hs => hlen.symm ▸ ((hvacant s).1 hs).1)
  refine ⟨bindings', ?_, hlen'.trans hlen, fun s hs => ?_⟩
  · rw [fillEmpty]
    dsimp only
    rw [bindSlots, hrun]
  · rw [hbound, hat s hs]
    have hjoin : bindings[s]?.join = content s := by rw [hat s hs]; rfl
    by_cases hmem : s ∈ t.namedSlots.filter fun slot => (bindings[slot]?.join).isNone
    · obtain ⟨-, hnamed, hnone⟩ := (hvacant s).1 hmem
      obtain ⟨name, hname⟩ := Option.isSome_iff_exists.1 hnamed
      rw [if_pos hmem, ← hjoin, hnone, hname]
      rfl
    · rw [if_neg hmem]
      cases hc : content s with
      | some c => rfl
      | none =>
        cases hname : t.nameAt s with
        | none => rfl
        | some name => exact absurd ((hvacant s).2 ⟨hs, by rw [hname]; rfl, hjoin.trans hc⟩) hmem

end Bound

/-! ### Reports of a template -/

section Template

variable {t : Template (Wrap Empty)} {added : List Adapter} {data : Value}

/-- What a report binds, once all its slots have what they get. -/
theorem Bound.exists_reported (allowMissing : Bool)
    {bindings : List (Option (Tree (Wrap Empty)))} (hlen : bindings.length = t.slotCount)
    (hat : ∀ s, s < t.slotCount → bindings[s]? =
      some (((t.nameAt s).bind (content? added .standard data)).map (Tree.under (t.wrapAt s)))) :
    ∃ bindings', (if allowMissing then Bound.fillEmpty ⟨t, bindings⟩ else ⟨t, bindings⟩) =
        (⟨t, bindings'⟩ : Bound (Wrap Empty) (Tree (Wrap Empty))) ∧
      bindings'.length = t.slotCount ∧ ∀ s, s < t.slotCount →
        bindings'[s]? = some (reportedAt added data allowMissing t s) := by
  cases allowMissing with
  | false =>
    refine ⟨bindings, rfl, hlen, fun s hs => ?_⟩
    rw [hat s hs, reportedAt]
    cases t.nameAt s with
    | none => rfl
    | some n => simp [reported?]
  | true =>
    obtain ⟨bindings', hrun, hlen', hbound⟩ := fillEmpty_ok hlen hat
    refine ⟨bindings', hrun, hlen', fun s hs => ?_⟩
    rw [hbound s hs, reportedAt]
    cases t.nameAt s with
    | none => rfl
    | some n =>
      cases hc : content? (ω := Wrap Empty) added .standard data n <;> simp [reported?, hc]

/-- **A report has bytes just if the slots, filled from the data, write them.** -/
theorem Template.WellFormed.report_ok_iff_weave (h : t.WellFormed) (key : String)
    (allowMissing : Bool) (f : Empty → Tree (Wrap Empty)) (runs : Runs) {out : Bytes}
    (hread : ∀ n ∈ t.names, ∀ e, Bound.reading added .standard data n ≠ .error e) :
    (t.report key added ⟨allowMissing, false⟩ data f runs).2.1 = .ok out ↔
      Written.weave (fun s =>
        slotWritten (t.nameAt s) (Bound.reportedAt added data allowMissing t s)) 0 t.fragments =
          .all out := by
  obtain ⟨bindings, missed, hrun, hlen, hmissed, hat⟩ :=
    Bound.fill_fresh (o := .standard) h rfl (by decide) hread
  rw [Template.report, if_neg Bool.false_ne_true]
  dsimp only
  rw [hrun]
  dsimp only
  by_cases hstop : (missed != 0 && !allowMissing) = true
  · -- a placeholder that was missed has a slot at which nothing is bound
    rw [if_pos hstop]
    rw [Bool.and_eq_true, bne_iff_ne, Bool.not_eq_true'] at hstop
    obtain ⟨hne, rfl⟩ := hstop
    have hsome : ∃ n ∈ t.names, Bound.IsMissed added .standard data n := by
      by_contra hnone
      exact hne (hmissed.2 fun n hn hmiss => hnone ⟨n, hn, hmiss⟩)
    obtain ⟨n, hn, -, hmiss⟩ := hsome
    obtain ⟨s, hs⟩ := h.lists.exists_slot hn
    refine ⟨fun hok => (by cases hok), fun hall => ?_⟩
    have hwhole := (Written.whole_weave _ _ _).1 (Written.eq_all_iff.1 hall).1 s
      (h.inRange s (by rw [hs]; rfl))
    rw [Nat.zero_add, Bound.reportedAt, hs] at hwhole
    simp [Bound.reported?, Bound.content?, hmiss, slotWritten] at hwhole
  · rw [if_neg hstop]
    obtain ⟨bindings', hreported, -, hbound⟩ := Bound.exists_reported allowMissing hlen hat
    dsimp only
    rw [hreported, Bound.expand, Bound.render, Tree.render_eq_ok_iff, Bound.toContent,
      expandBindings_eq_self fun c _ => Tree.expand_self f c, Tree.written_bound,
      slotsWritten_eq_weave t t.fragments 0 bindings' rfl]
    intro i hi
    rw [Nat.zero_add]
    exact hbound i (Nat.lt_succ_of_le hi)

/-- A report has no bytes if a path does not fit the data. -/
theorem Template.WellFormed.report_ne_ok (h : t.WellFormed) (key : String) (allowMissing : Bool)
    (f : Empty → Tree (Wrap Empty)) (runs : Runs) (out : Bytes)
    (hread : ∃ n ∈ t.names, ∃ e, Bound.reading added .standard data n = .error e) :
    (t.report key added ⟨allowMissing, false⟩ data f runs).2.1 ≠ .ok out := by
  obtain ⟨b, e, hrun⟩ := Bound.fill_fails (o := .standard) h rfl (by decide) hread
  rw [Template.report, if_neg Bool.false_ne_true]
  dsimp only
  rw [hrun]
  exact fun hok => by cases hok

end Template

/-! ### Reports of what comes from a source -/

/-- Slots that are written as their names say are all written just if the names are. -/
theorem Template.WellFormed.weave_eq_all_iff {t : Template ω} (h : t.WellFormed)
    (w : String → Written) {out : Bytes} :
    Written.weave (fun s => (t.nameAt s).elim (.all []) w) 0 t.fragments = .all out ↔
      (∀ n ∈ t.names, (w n).whole = true) ∧
        out = weave (fun s => ((t.nameAt s).map fun n => (w n).bytes).getD []) 0 t.fragments := by
  have hbytes : (fun s => ((t.nameAt s).map fun n => (w n).bytes).getD []) =
      fun s => ((t.nameAt s).elim (.all []) w).bytes := by
    funext s
    cases t.nameAt s <;> rfl
  have hwhole :
      (Written.weave (fun s => (t.nameAt s).elim (.all []) w) 0 t.fragments).whole = true ↔
        ∀ n ∈ t.names, (w n).whole = true := by
    rw [Written.whole_weave]
    constructor
    · intro hall n hn
      obtain ⟨s, hs⟩ := h.lists.exists_slot hn
      have hslot := hall s (h.inRange s (by rw [hs]; rfl))
      rwa [Nat.zero_add, hs] at hslot
    · intro hall i _
      cases hn : t.nameAt (0 + i) with
      | none => rfl
      | some n => exact hall n (h.lists.mem_names hn)
  rw [Written.eq_all_iff, hwhole, hbytes]
  refine and_congr_right fun hall => ?_
  rw [Written.bytes_weave _ _ _ (hwhole.2 hall)]

namespace Bound

variable {added : List Adapter} {data : Value} {o : ReportOptions} {name : String} {out : Bytes}

/-- What is written at a placeholder in a report. -/
def reportedWritten (added : List Adapter) (data : Value) (o : ReportOptions) (name : String) :
    Written :=
  slotWritten (some name)
    ((reported? (ω := Wrap Empty) added data o.allowMissing name).map (Tree.inReport o.escapeHtml))

/-- A placeholder is written just if it is covered or may be missed; and then as its value is shown,
or not at all. -/
theorem reportedWritten_eq_all_iff (hread : ∀ e, reading added .standard data name ≠ .error e) :
    reportedWritten added data o name = .all out ↔
      ((∃ format v, reading added .standard data name = .ok (some (format, v))) ∨
        o.allowMissing = true) ∧
      (∀ format v, reading added .standard data name = .ok (some (format, v)) →
        v.ShownIn format o.escapeHtml out) ∧
      (reading added .standard data name = .ok none → out = []) := by
  rcases hreading : reading added .standard data name with e | _ | ⟨format, v⟩
  · exact absurd hreading (hread e)
  · have hcontent : content? (ω := Wrap Empty) added .standard data name = none := by
      rw [content?, hreading]
    rw [reportedWritten, reported?, hcontent]
    cases o.allowMissing with
    | false => simp [slotWritten, Written.all]
    | true =>
      have hempty := Tree.written_inReport_empty (ω := Wrap Empty) o.escapeHtml
      simp [slotWritten, hempty, Written.all, eq_comm]
  · have hcontent : content? (ω := Wrap Empty) added .standard data name =
        some (.ofValue format v) := by rw [content?, hreading]
    rw [reportedWritten, reported?, hcontent, Option.some_or, Option.map_some, slotWritten,
      Tree.written_inReport_iff]
    simp

/-- In a report all slots of a name are written in the same way. -/
theorem slotWritten_reportedAt {t : Template (Wrap Empty)} (h : t.IsBare) (s : Nat) :
    slotWritten ((t.dressed o.escapeHtml).nameAt s)
        (reportedAt added data o.allowMissing (t.dressed o.escapeHtml) s) =
      (t.nameAt s).elim (.all []) (reportedWritten added data o) := by
  rw [reportedAt, h.wrapAt_dressed, Template.nameAt_dressed]
  cases t.nameAt s with
  | none => rfl
  | some n =>
    have hunder : Tree.under (if o.escapeHtml = true ∧ (some n).isSome = true then
        some Wrap.html else none) = Tree.inReport (ω := Wrap Empty) o.escapeHtml := by
      funext c
      cases o.escapeHtml <;> rfl
    rw [hunder]
    rfl

end Bound

/-- A report of a template without wraps has bytes just if all its names are written. -/
theorem Template.IsBare.report_ok_iff {t : Template (Wrap Empty)} (h : t.IsBare)
    {added : List Adapter} {data : Value} (key : String) (o : ReportOptions)
    (f : Empty → Tree (Wrap Empty)) (runs : Runs) {out : Bytes}
    (hread : ∀ n ∈ t.names, ∀ e, Bound.reading added .standard data n ≠ .error e) :
    (t.report key added o data f runs).2.1 = .ok out ↔
      (∀ n ∈ t.names, (Bound.reportedWritten added data o n).whole = true) ∧
        out = weave (fun s =>
          ((t.nameAt s).map fun n => (Bound.reportedWritten added data o n).bytes).getD [])
            0 t.fragments := by
  rw [h.wellFormed.report_eq, (h.wellFormed.dressed _).report_ok_iff_weave key o.allowMissing f runs
    (by rwa [Template.names_dressed]), Template.fragments_dressed,
    funext (Bound.slotWritten_reportedAt h)]
  exact h.wellFormed.weave_eq_all_iff _

/-- **What a report has to do with the data.**  Let a source be read into an empty catalogue.  A
report has bytes just if there is a template under the key, no path of a placeholder fails to fit
the data, every placeholder is covered by the data or may be missed, and all values can be shown.
The bytes are then those of the template's fragments and, at each named slot, of the value for the
name: as text or in the format that the name tells, escaped if that is asked for; and none at all
where there is no value. -/
theorem Catalog.report_eq_ok_iff (m : Markup) (root : String) (source : Lines) (key : String)
    (added : List Adapter) (o : ReportOptions) (data : Value) (runs : Runs) (bytes : Bytes) :
    let c := (Catalog.parse ([] : Catalog (Wrap Empty)) m root source).1
    let read := Bound.reading added .standard data
    (c.report key added o data runs).1 = .ok bytes ↔
      ∃ t, c.get? key = some t ∧ (∀ n ∈ t.names, ∀ e, read n ≠ .error e) ∧
        (∀ n ∈ t.names, (∃ format v, read n = .ok (some (format, v))) ∨ o.allowMissing = true) ∧
        ∃ text : String → Bytes,
          (∀ n ∈ t.names, ∀ format v, read n = .ok (some (format, v)) →
            v.ShownIn format o.escapeHtml (text n)) ∧
          (∀ n ∈ t.names, read n = .ok none → text n = []) ∧
          bytes = weave (fun s => ((t.nameAt s).map text).getD []) 0 t.fragments := by
  intro c read
  rw [Catalog.report]
  cases hget : c.get? key with
  | none => simp
  | some t =>
    have hbare : t.IsBare := Catalog.parse_isBare m root source _ (Catalog.mem_of_get? hget)
    dsimp only
    constructor
    · intro hok
      have hread : ∀ n ∈ t.names, ∀ e, read n ≠ .error e := by
        by_contra hnot
        simp only [not_forall, not_not, exists_prop] at hnot
        rw [hbare.wellFormed.report_eq] at hok
        exact (hbare.wellFormed.dressed _).report_ne_ok key o.allowMissing _ runs bytes
          (by rwa [Template.names_dressed]) hok
      obtain ⟨hwhole, hbytes⟩ := (hbare.report_ok_iff key o _ runs hread).1 hok
      have hname (n : String) (hn : n ∈ t.names) :=
        (Bound.reportedWritten_eq_all_iff (hread n hn)).1 (Written.eq_all_iff.2 ⟨hwhole n hn, rfl⟩)
      exact ⟨t, rfl, hread, fun n hn => (hname n hn).1, _, fun n hn => (hname n hn).2.1,
        fun n hn => (hname n hn).2.2, hbytes⟩
    · rintro ⟨t', ht', hread, hcovered, text, hshown, hnone, hbytes⟩
      cases ht'
      have hname (n : String) (hn : n ∈ t.names) :
          Bound.reportedWritten added data o n = .all (text n) :=
        (Bound.reportedWritten_eq_all_iff (hread n hn)).2
          ⟨hcovered n hn, hshown n hn, hnone n hn⟩
      refine (hbare.report_ok_iff key o _ runs hread).2 ⟨fun n hn => by rw [hname n hn]; rfl, ?_⟩
      rw [hbytes]
      congr 1
      funext s
      cases hs : t.nameAt s with
      | none => rfl
      | some n =>
        rw [Option.map_some, Option.map_some, hname n (hbare.wellFormed.lists.mem_names hs)]
        rfl

end Stencil
