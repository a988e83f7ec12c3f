import Stencil.Proofs.Template.Edits
import Stencil.Source.Parse

/-!
# What parsing keeps

Parsing only builds: it begins with a template with nothing in it, or goes on with one of the
catalogue, and adds static bytes and placeholders.  So whatever building keeps holds of every
template that a source leaves behind, also where parsing fails half-way.

## Main definitions

* `Catalog.All`, `Parsing.All` — all templates have a property.
* `Failure.templates` — the templates that an error tells of.

## Main results

* `Catalog.parse_keeps` — what building keeps, parsing keeps.
-/

namespace Stencil

variable {ω : Type} {P : Template ω → Prop}

/-! ### Catalogues -/

namespace Catalog

theorem mem_put {c : Catalog ω} {key : String} {t : Template ω} {e : String × Template ω}
    (h : e ∈ c.put key t) : e = (key, t) ∨ e ∈ c := by
  induction c with
  | nil => exact .inl (List.mem_singleton.1 h)
  | cons d c ih =>
    obtain ⟨k, old⟩ := d
    unfold put at h
    split at h
    · next hk =>
      rcases List.mem_cons.1 h with h | h
      · exact .inl (by rw [h, hk])
      · exact .inr (List.mem_cons_of_mem _ h)
    · rcases List.mem_cons.1 h with h | h
      · exact .inr (h ▸ List.mem_cons_self)
      · exact (ih h).imp_right (List.mem_cons_of_mem _)

theorem mem_of_get? {c : Catalog ω} {key : String} {t : Template ω} (h : c.get? key = some t) :
    (key, t) ∈ c := mem_of_lookup_eq_some h

/-- All templates of the catalogue have a property. -/
def All (P : Template ω → Prop) (c : Catalog ω) : Prop := ∀ e ∈ c, P e.2

theorem All.put {c : Catalog ω} (h : c.All P) {t : Template ω} (ht : P t) (key : String) :
    (c.put key t).All P := by
  intro e he
  rcases mem_put he with rfl | he
  · exact ht
  · exact h e he

end Catalog

/-- The templates that an error tells of. -/
def Failure.templates : Failure ω → Catalog ω
  | .parse (.duplicates templates) => templates
  | _ => []

namespace Parsing

/-- All templates that a parse has in hand have a property. -/
structure All (P : Template ω → Prop) (st : Parsing ω) : Prop where
  /-- Those that are stored. -/
  catalog : st.catalog.All P
  /-- Those whose keys are taken. -/
  duplicates : st.duplicates.All P
  /-- The one that is open. -/
  current : ∀ t, st.current = .detached t → P t

/-- All templates that a step leaves, and those that its error tells of, have a property. -/
structure Keeps (P : Template ω → Prop) (r : Stepped ω) : Prop where
  /-- Those that it leaves. -/
  state : r.1.All P
  /-- Those that its error tells of. -/
  failure : ∀ e, r.2 = some e → e.templates.All P

theorem Keeps.of_none {st : Parsing ω} (h : st.All P) : Keeps P (st, none) where
  state := h
  failure e he := by cases he

theorem Keeps.of_fault {st : Parsing ω} (h : st.All P) (f : Fault) :
    Keeps P (st, some (.fault f)) where
  state := h
  failure e he := by
    cases he
    intro e he
    cases he

theorem Keeps.of_parse {st : Parsing ω} (h : st.All P) {e : ParseError ω}
    (he : Failure.templates (.parse e) = []) : Keeps P (st, some (.parse e)) where
  state := h
  failure e' he' := by
    cases he'
    rw [he]
    intro e he
    cases he

variable {st : Parsing ω} {m : Markup} {root : String} {line : Nat} {t : Template ω}

theorem All.currentTemplate (h : st.All P) (ht : st.currentTemplate? m = some t) : P t := by
  unfold currentTemplate? at ht
  split at ht
  · cases ht
  · exact h.catalog _ (Catalog.mem_of_get? ht)
  · next hc =>
    cases ht
    exact h.current _ hc

theorem All.need (hP : BareBuilding P) (h : st.All P) (ht : st.need m root line = .ok t) : P t := by
  unfold Parsing.need at ht
  split at ht
  · cases ht
    exact hP.blank _
  · next t' ht' =>
    dsimp only at ht
    split at ht
    · cases ht
      exact h.currentTemplate ht'
    · cases ht

/-- What `need` refuses is the name of a template. -/
theorem templates_of_need {e : ParseError ω} (he : st.need m root line = .error e) :
    Failure.templates (.parse e) = [] := by
  unfold need at he
  split at he
  · cases he
  · dsimp only at he
    split at he <;> cases he
    rfl

theorem All.setCurrent (h : st.All P) (ht : P t) : (st.setCurrent m t).All P := by
  unfold Parsing.setCurrent
  split
  · exact ⟨h.catalog.put ht _, h.duplicates, h.current⟩
  · refine ⟨h.catalog, h.duplicates, fun t' ht' => ?_⟩
    cases ht'
    exact ht

theorem All.store (h : st.All P) : (st.store m).All P := by
  unfold Parsing.store
  split
  · next t ht =>
    split
    · exact ⟨h.catalog, h.duplicates.put (h.current t ht) _, h.current⟩
    · exact ⟨h.catalog.put (h.current t ht) _, h.duplicates, h.current⟩
  · exact h

theorem All.enter (h : st.All P) (path : List String) (pending : String) :
    (st.enter m path pending).All P := by
  refine ⟨h.catalog, h.duplicates, fun t ht => ?_⟩
  simp only [Parsing.enter] at ht
  split at ht <;> cases ht

theorem keeps_withPending (hP : BareBuilding P) (st : Parsing ω) (ht : P t) (keep : Bool) :
    P (st.withPending keep t) := by
  unfold withPending
  split
  · exact hP.addStatic _ ht
  · exact ht

theorem keeps_addText (hP : BareBuilding P) (ht : P t) (text : List Char) : P (addText t text) := by
  unfold addText
  split
  · exact ht
  · exact hP.addStatic _ ht

theorem keeps_addMarked (hP : BareBuilding P) (ht : P t) (piece : List Char × List Char) :
    P (addMarked t piece) := by
  have htext := keeps_addText hP ht piece.1
  unfold addMarked
  split
  · next ht' => exact hP.addPlaceholder htext ht'
  · exact htext

theorem keeps_addScan (hP : BareBuilding P) (ht : P t) (scan : InlineScan) :
    P (addScan t scan) := by
  have hmarked : ∀ (pieces : List (List Char × List Char)) {t : Template ω}, P t →
      P (pieces.foldl addMarked t) := by
    intro pieces
    induction pieces with
    | nil => exact fun ht => ht
    | cons piece pieces ih => exact fun ht => ih (keeps_addMarked hP ht piece)
  exact keeps_addText hP (hmarked scan.marked ht) scan.tail

theorem keeps_openTemplate (h : st.All P) (name : Except Fault (Option String)) :
    Keeps P (st.openTemplate m line name) := by
  unfold openTemplate
  split
  · exact .of_fault h _
  · exact .of_fault h _
  · split
    · exact .of_parse h rfl
    · exact .of_none (h.enter _ _)

theorem keeps_addBlock (hP : BareBuilding P) (h : st.All P) (ht : P t)
    (name : Except Fault (Option String)) (trail : Except Fault Bool) :
    Keeps P (st.addBlock m name trail t) := by
  unfold addBlock
  split
  · exact .of_fault (h.setCurrent ht) _
  · split
    · exact .of_fault (h.setCurrent ht) _
    · next t' ht' =>
      have hnext := h.setCurrent (m := m) (hP.addPlaceholder ht ht')
      split
      · exact .of_fault hnext _
      · exact .of_none ⟨hnext.catalog, hnext.duplicates, hnext.current⟩

/-- A step keeps what building keeps: each kind of line adds to the open template at most. -/
theorem keeps_step (hP : BareBuilding P) (h : st.All P) (what : Markup.Line) :
    Keeps P (st.step m root line what) := by
  cases what with
  | start lead name =>
    simp only [step]
    unfold stepStart
    split
    · exact .of_fault h _
    · exact keeps_openTemplate h.store name
    · split
      · next e he => exact .of_parse h (templates_of_need he)
      · next t ht =>
        exact keeps_openTemplate
          (h.setCurrent (keeps_withPending hP st (h.need hP ht) true)).store name
  | finish name trail =>
    simp only [step]
    unfold stepFinish
    split
    · exact .of_fault h _
    · split
      · exact .of_parse h rfl
      · split
        · exact .of_fault h.store _
        · exact .of_none (h.store.enter _ _)
  | block lead name trail =>
    simp only [step]
    unfold stepBlock
    split
    · next e he => exact .of_parse h (templates_of_need he)
    · next t ht =>
      split
      · exact .of_fault (h.setCurrent (h.need hP ht)) _
      · exact keeps_addBlock hP h (keeps_withPending hP st (h.need hP ht) _) name trail
  | plain text =>
    simp only [step]
    unfold stepPlain
    split
    · next e he => exact .of_parse h (templates_of_need he)
    · next t ht =>
      have hnext := h.setCurrent (m := m)
        (keeps_addScan hP (keeps_withPending hP st (h.need hP ht) true)
          (InlineScan.ofLine m.inlineStart.toList m.inlineEnd.toList text.toList))
      simp only
      split
      · exact .of_parse hnext rfl
      · exact .of_none ⟨hnext.catalog, hnext.duplicates, hnext.current⟩

/-- Lines keep what building keeps. -/
theorem keeps_run (hP : BareBuilding P) (lines : List String) : ∀ {st : Parsing ω} {line : Nat},
    st.All P → Keeps P (run m root line lines st) := by
  induction lines with
  | nil => exact fun h => .of_none h
  | cons text lines ih =>
    intro st line h
    have hstep : Keeps P (st.step m root line (m.classify text)) := keeps_step hP h _
    unfold run
    split
    · next st' heq =>
      rw [heq] at hstep
      exact ih hstep.state
    · next st' e heq =>
      rw [heq] at hstep
      exact hstep

theorem keeps_close (h : st.All P) : Keeps P (st.close m) := by
  unfold close
  split
  · exact .of_parse h rfl
  · simp only
    split
    · exact .of_none h.store
    · refine ⟨h.store, fun e he => ?_⟩
      cases he
      exact h.store.duplicates

end Parsing

/-- What building keeps, parsing keeps: of the templates that the catalogue has afterwards, and of
those that an error tells of. -/
theorem Catalog.parse_keeps (hP : BareBuilding P) {c : Catalog ω} (h : c.All P) (m : Markup)
    (root : String) (source : Lines) :
    (c.parse m root source).1.All P ∧
      ∀ e, (c.parse m root source).2 = some e → e.templates.All P := by
  have hstart : (Parsing.start c).All P := ⟨h, nofun, nofun⟩
  have hrun : Parsing.Keeps P (Parsing.run m root 1 source.lines (.start c)) :=
    Parsing.keeps_run hP source.lines hstart
  unfold Catalog.parse
  split
  · next st e heq =>
    rw [heq] at hrun
    exact ⟨hrun.state.catalog, hrun.failure⟩
  · next st heq =>
    rw [heq] at hrun
    split
    · exact ⟨hrun.state.catalog, (Parsing.Keeps.of_fault hrun.state _).failure⟩
    · have hclose := Parsing.keeps_close (m := m) hrun.state
      exact ⟨hclose.state.catalog, hclose.failure⟩

end Stencil
