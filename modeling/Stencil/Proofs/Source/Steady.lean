import Stencil.Proofs.Source.Course
import Stencil.Proofs.Source.Simulation

/-!
# A parse follows the course of its source

A parse follows the course of its source if each template in the catalogue has the name that its key
asks for, and none is there under the open key without being the open template.  This is so at the
start of a parse into a catalogue without an outermost template.  Then no template is a duplicate,
and none is continued under another name.

## Main definitions

* `Shelf` — the templates by their keys, wherever they are kept.
* `Parsing.Steady` — the states in which a parse follows its course.

## Main results

* `Parsing.Steady.step`, `Parsing.Steady.run` — a step and a run follow the course.
* `Catalog.parse_course` — what stops a parse, and what templates it makes.
-/

namespace Stencil

variable {ω : Type}

/-! ### Shelves -/

/-- The templates by their keys. -/
abbrev Shelf (ω : Type) := String → Option (Template ω)

namespace Shelf

/-- The shelf with the template under a key edited; it is made if it is not there. -/
def edit (sep root : String) (shelf : Shelf ω) (key : String) (es : List (Edit ω)) : Shelf ω :=
  fun k =>
    if k = key then some (((shelf key).getD (.blank (Parsing.nameOf sep root key))).edits es)
    else shelf k

/-- The shelf after all edits of a log. -/
def replay (sep root : String) (shelf : Shelf ω) (log : EditLog ω) : Shelf ω :=
  log.foldl (fun shelf e => shelf.edit sep root (Parsing.keyOf sep e.1) e.2) shelf

/-- All templates have the names that their keys ask for. -/
def Named (sep root : String) (shelf : Shelf ω) : Prop :=
  ∀ k t, shelf k = some t → t.name = Parsing.nameOf sep root k

theorem named_nil {sep root : String} :
    Shelf.Named sep root (Catalog.get? ([] : Catalog ω)) := by
  intro k t ht
  rw [Catalog.get?_nil] at ht
  cases ht

theorem Named.getD {sep root : String} {shelf : Shelf ω} (h : shelf.Named sep root) (key : String) :
    ((shelf key).getD (.blank (Parsing.nameOf sep root key))).name =
      Parsing.nameOf sep root key := by
  cases hk : shelf key with
  | none => rfl
  | some t => exact h key t hk

theorem Named.edit {sep root : String} {shelf : Shelf ω} (h : shelf.Named sep root) (key : String)
    (es : List (Edit ω)) : (shelf.edit sep root key es).Named sep root := by
  intro k t ht
  unfold Shelf.edit at ht
  split at ht
  · next hk =>
    cases ht
    rw [Template.name_edits, h.getD, hk]
  · exact h k t ht

end Shelf

/-! ### States -/

namespace Parsing

variable {m : Markup} {root : String} {line : Nat} {st st' : Parsing ω} {t t' : Template ω}

/-- The templates of a state by their keys, wherever they are kept. -/
def shelf (m : Markup) (st : Parsing ω) : Shelf ω :=
  fun k => if k = st.key m then st.currentTemplate? m else st.catalog.get? k

/-- The states in which a parse follows its course. -/
structure Steady (m : Markup) (root : String) (st : Parsing ω) : Prop where
  /-- The open key is free, unless the open template is stored. -/
  free : st.current ≠ .stored → st.catalog.get? (st.key m) = none
  /-- All templates have the names that their keys ask for. -/
  named : (st.shelf m).Named m.pathSep root

/-- A state after a line that does not fail. -/
structure Follows (m : Markup) (root : String) (st : Parsing ω) (what : Markup.Line)
    (st' : Parsing ω) : Prop where
  /-- The parse goes on to follow its course. -/
  steady : st'.Steady m root
  /-- The path is the one after the line. -/
  path : st'.path = what.pathAfter st.path
  /-- The break is the one after the line. -/
  pending : st'.pending = what.breakAfter m
  /-- The open template is edited as the line says. -/
  shelf : st'.shelf m = match what.edits? m st.pending with
    | none => st.shelf m
    | some es => (st.shelf m).edit m.pathSep root (st.key m) es
  /-- No template is a duplicate. -/
  duplicates : st'.duplicates = st.duplicates

/-- What a line ends in: it fails as the line and the open path say, or the course goes on. -/
structure OnCourse (m : Markup) (root : String) (line : Nat) (st : Parsing ω) (what : Markup.Line)
    (r : Stepped ω) : Prop where
  /-- What stops the line. -/
  failure : r.2 = what.failure? m st.path line
  /-- The state after a line that does not fail. -/
  follows : (what.failure? m st.path line : Option (Failure ω)) = none → st.Follows m root what r.1

theorem OnCourse.of_failure {what : Markup.Line} {r : Stepped ω} {e : Failure ω}
    (he : what.failure? m st.path line = some e) (hr : r.2 = some e) :
    OnCourse m root line st what r := ⟨hr.trans he.symm, fun h => by rw [he] at h; cases h⟩

theorem shelf_key (st : Parsing ω) : st.shelf m (st.key m) = st.currentTemplate? m := if_pos rfl

/-! #### Adding -/

theorem withPending_eq (st : Parsing ω) (keep : Bool) (t : Template ω) :
    st.withPending keep t = t.edits (breakEdits st.pending keep) := by
  cases keep <;> rfl

theorem addText_eq (t : Template ω) (text : List Char) :
    addText t text = t.edits (textEdits text) := by
  unfold addText textEdits
  split <;> rfl

theorem addMarked_eq (t : Template ω) (text name : List Char) : addMarked t (text, name) =
    t.edits (textEdits text ++ [.addPlaceholder (String.ofList name) none]) := by
  rw [addMarked, Template.edits_append, ← addText_eq]
  simp only [Template.edits_cons, Template.edits_nil, Template.edit]
  cases (addText t text).addPlaceholder (String.ofList name) none <;> rfl

theorem foldl_addMarked_eq (marked : List (List Char × List Char)) : ∀ t : Template ω,
    marked.foldl addMarked t = t.edits (marked.flatMap fun (text, name) =>
      textEdits text ++ [.addPlaceholder (String.ofList name) none]) := by
  induction marked with
  | nil => exact fun t => rfl
  | cons piece rest ih =>
    intro t
    rw [List.foldl_cons, List.flatMap_cons, Template.edits_append, ih, addMarked_eq]

theorem addScan_eq (t : Template ω) (scan : InlineScan) : addScan t scan = t.edits scan.edits := by
  rw [addScan, InlineScan.edits, Template.edits_append, foldl_addMarked_eq, addText_eq]

/-! #### The parts of a step -/

/-- The open template is there or made, and has the right name. -/
theorem Steady.need (h : st.Steady m root) (line : Nat) : st.need m root line =
    .ok ((st.shelf m (st.key m)).getD (.blank (nameOf m.pathSep root (st.key m)))) := by
  have hname := h.named (st.key m)
  rw [shelf_key] at hname ⊢
  unfold Parsing.need
  cases ht : st.currentTemplate? m with
  | none => rfl
  | some t => exact if_pos (hname t ht)

/-- The open template is edited where it is kept. -/
theorem Steady.setCurrent (h : st.Steady m root) (es : List (Edit ω)) :
    let st' := st.setCurrent m
      (((st.shelf m (st.key m)).getD (.blank (nameOf m.pathSep root (st.key m)))).edits es)
    st'.Steady m root ∧ st'.shelf m = (st.shelf m).edit m.pathSep root (st.key m) es := by
  intro st'
  have hshelf : st'.shelf m = (st.shelf m).edit m.pathSep root (st.key m) es := by
    have hkey : st'.key m = st.key m := key_setCurrent m st _
    funext k
    rw [Shelf.edit]
    split
    · next hk => exact (if_pos (hk.trans hkey.symm)).trans (currentTemplate?_setCurrent m st _)
    · next hk =>
      have hother : st'.catalog.get? k = st.catalog.get? k := get?_setCurrent_of_ne m st _ hk
      rw [shelf, shelf, if_neg hk, hkey, if_neg hk, hother]
  refine ⟨⟨fun hc => ?_, ?_⟩, hshelf⟩
  · obtain ⟨hc, hcatalog⟩ := catalog_setCurrent m st _ hc
    rw [key_setCurrent, hcatalog]
    exact h.free hc
  · rw [hshelf]
    exact h.named.edit _ es

/-- Storing the open template keeps all templates under their keys, and finds no duplicate. -/
theorem Steady.store (h : st.Steady m root) :
    (st.store m).catalog.get? = st.shelf m ∧ (st.store m).duplicates = st.duplicates := by
  unfold Parsing.store shelf currentTemplate?
  cases hc : st.current with
  | absent =>
    have hfree := h.free (by rw [hc]; exact nofun)
    refine ⟨funext fun k => ?_, rfl⟩
    dsimp only
    split
    · next hk => rw [hk, hfree]
    · rfl
  | stored =>
    refine ⟨funext fun k => ?_, rfl⟩
    dsimp only
    split
    · next hk => rw [hk]
    · rfl
  | detached t =>
    have hfree := h.free (by rw [hc]; exact nofun)
    dsimp only
    rw [hfree, Option.isSome_none, if_neg Bool.false_ne_true]
    refine ⟨funext fun k => ?_, rfl⟩
    dsimp only
    split
    · next hk =>
      rw [hk]
      exact Catalog.get?_put_self _ _ _
    · next hk => exact Catalog.get?_put_of_ne _ _ hk

/-- When all is stored, any path can be entered. -/
theorem steady_enter (h : Shelf.Named m.pathSep root st.catalog.get?) (path : List String)
    (pending : String) : (st.enter m path pending).Steady m root ∧
      (st.enter m path pending).shelf m = st.catalog.get? := by
  have hshelf : (st.enter m path pending).shelf m = st.catalog.get? := by
    funext k
    unfold shelf Parsing.enter currentTemplate? key
    dsimp only
    split
    · next hk =>
      rw [hk]
      cases hget : st.catalog.get? (keyOf m.pathSep path) <;> rfl
    · rfl
  refine ⟨⟨fun hc => ?_, ?_⟩, hshelf⟩
  · unfold Parsing.enter at hc
    cases hget : st.catalog.get? (keyOf m.pathSep path) with
    | none => exact hget
    | some t =>
      rw [hget] at hc
      exact absurd rfl hc
  · rw [hshelf]
    exact h

/-! #### Steps -/

/-- A start line, in a state that has added what the line adds. -/
theorem OnCourse.openTemplate {lead : Bool} {name : String} {st₁ : Parsing ω}
    (h₁ : st₁.Steady m root) (hpath : st₁.path = st.path)
    (hshelf : st₁.shelf m = match (Markup.Line.start (.ok lead) (.ok (some name))).edits? m
      st.pending with
      | none => st.shelf m
      | some es => (st.shelf m).edit m.pathSep root (st.key m) es)
    (hduplicates : st₁.duplicates = st.duplicates) :
    OnCourse m root line st (.start (.ok lead) (.ok (some name)))
      ((st₁.store m).openTemplate m line (.ok (some name))) := by
  obtain ⟨hcatalog, hduplicates₁⟩ := h₁.store
  have henter := steady_enter (hcatalog ▸ h₁.named) ((st₁.store m).path ++ [name]) ""
  simp only [Parsing.openTemplate]
  split
  · next hname => exact .of_failure (if_pos hname) rfl
  · next hname =>
    refine ⟨(if_neg hname).symm, fun _ => ⟨henter.1, ?_, rfl, ?_, ?_⟩⟩
    · rw [← hpath, ← path_store m st₁]
      rfl
    · exact henter.2.trans (hcatalog.trans hshelf)
    · exact hduplicates₁.trans hduplicates

theorem Steady.stepStart (h : st.Steady m root) (lead : Except Fault Bool)
    (name : Except Fault (Option String)) :
    OnCourse m root line st (.start lead name) (st.stepStart m root line lead name) := by
  have hneed := h.need line
  cases lead with
  | error f => exact .of_failure rfl rfl
  | ok keep =>
    cases name with
    | error f =>
      refine OnCourse.of_failure (show _ = some (.fault f) from rfl) ?_
      cases keep with
      | false => rfl
      | true => rw [Parsing.stepStart, hneed]; rfl
    | ok name =>
      cases name with
      | none =>
        refine OnCourse.of_failure (show _ = some (.fault .nameWithoutText) from rfl) ?_
        cases keep with
        | false => rfl
        | true => rw [Parsing.stepStart, hneed]; rfl
      | some name =>
        cases keep with
        -- the break before the region is dropped
        | false => exact .openTemplate h rfl rfl rfl
        -- it goes to the template around the region before that is stored
        | true =>
          rw [Parsing.stepStart, hneed]
          dsimp only
          rw [withPending_eq]
          obtain ⟨hset, hshelf⟩ := h.setCurrent (breakEdits st.pending true)
          exact .openTemplate hset (path_setCurrent m st _) hshelf (duplicates_setCurrent m st _)

theorem Steady.stepFinish (h : st.Steady m root) (name : Except Fault (Option String))
    (trail : Except Fault Bool) :
    OnCourse m root line st (.finish name trail) (st.stepFinish m line name trail) := by
  cases name with
  | error f => exact .of_failure rfl rfl
  | ok name =>
    simp only [Parsing.stepFinish]
    split
    · next hname => exact .of_failure (if_pos hname) rfl
    · next hname =>
      cases trail with
      | error f => exact .of_failure (if_neg hname) rfl
      | ok keep =>
        obtain ⟨hcatalog, hduplicates⟩ := h.store
        have henter := steady_enter (hcatalog ▸ h.named) (st.store m).path.dropLast
          (Parsing.breakAfter m keep)
        refine ⟨(if_neg hname).symm, fun _ => ⟨henter.1, ?_, rfl, henter.2.trans hcatalog,
          hduplicates⟩⟩
        rw [← path_store m st]
        rfl

/-- The open template edited, and another break pending. -/
theorem Steady.follows_edit (h : st.Steady m root) {what : Markup.Line} {es : List (Edit ω)}
    (hes : what.edits? m st.pending = some es) (hpath : what.pathAfter st.path = st.path) :
    st.Follows m root what { st.setCurrent m
      (((st.shelf m (st.key m)).getD (.blank (nameOf m.pathSep root (st.key m)))).edits es) with
      pending := what.breakAfter m } := by
  obtain ⟨hset, hshelf⟩ := h.setCurrent es
  refine ⟨⟨hset.free, hset.named⟩, (path_setCurrent m st _).trans hpath.symm, rfl, ?_,
    duplicates_setCurrent m st _⟩
  rw [hes]
  exact hshelf

theorem addPlaceholder_eq {name : String} (hname : ¬ name.isEmpty = true) :
    t.addPlaceholder name none = .ok (t.edits [.addPlaceholder name none]) := by
  rw [Template.edits_cons, Template.edits_nil, Template.edit,
    Template.addPlaceholder_eq_ok_iff.2 ⟨mt String.isEmpty_iff.2 hname, rfl⟩]
  rfl

theorem Steady.stepBlock (h : st.Steady m root) (lead : Except Fault Bool)
    (name : Except Fault (Option String)) (trail : Except Fault Bool) :
    OnCourse m root line st (.block lead name trail)
      (st.stepBlock m root line lead name trail) := by
  rw [Parsing.stepBlock, h.need]
  cases lead with
  | error f => exact .of_failure rfl rfl
  | ok keep =>
    cases name with
    | error f => exact .of_failure rfl rfl
    | ok name =>
      simp only [Parsing.addBlock]
      by_cases hname : (name.getD "").isEmpty = true
      · rw [Template.addPlaceholder, if_pos hname]
        exact .of_failure (if_pos hname) rfl
      · rw [addPlaceholder_eq hname, withPending_eq, ← Template.edits_append]
        cases trail with
        | error f => exact .of_failure (if_neg hname) rfl
        | ok keepTrail => exact ⟨(if_neg hname).symm, fun _ => h.follows_edit rfl rfl⟩

theorem Steady.stepPlain (h : st.Steady m root) (text : String) :
    OnCourse m root line st (.plain text) (st.stepPlain m root line text) := by
  have hscan : InlineScan.ofLine m.inlineStart.toList m.inlineEnd.toList text.toList =
    m.scan text := rfl
  rw [Parsing.stepPlain, h.need]
  simp only [hscan]
  rw [withPending_eq, addScan_eq, ← Template.edits_append]
  cases hclosed : (m.scan text).unclosed with
  | none =>
    have hnone :
        (Markup.Line.plain text).failure? m st.path line = (none : Option (Failure ω)) := by
      rw [Markup.Line.failure?, hclosed, Option.map_none]
    exact ⟨hnone.symm, fun _ => h.follows_edit rfl rfl⟩
  | some rest =>
    refine .of_failure ?_ rfl
    rw [Markup.Line.failure?, hclosed, Option.map_some]

/-- **A step follows the course**: it fails as the line and the open path say, and otherwise edits
the open template as the line and the pending break say. -/
theorem Steady.step (h : st.Steady m root) (line : Nat) (what : Markup.Line) :
    OnCourse m root line st what (st.step m root line what) := by
  cases what with
  | start lead name => exact h.stepStart lead name
  | finish name trail => exact h.stepFinish name trail
  | block lead name trail => exact h.stepBlock lead name trail
  | plain text => exact h.stepPlain text

/-! ### Runs -/

/-- **A run follows the course**: it fails as the first line that fails, and otherwise makes all
edits of the lines' log. -/
theorem Steady.run (lines : List String) : ∀ {st : Parsing ω} (line : Nat), st.Steady m root →
    let whats := lines.map m.classify
    (Parsing.run m root line lines st).2 = m.firstFailure? st.path line whats ∧
      ((m.firstFailure? st.path line whats : Option (Failure ω)) = none →
        let st' := (Parsing.run m root line lines st).1
        st'.Steady m root ∧ st'.path = Markup.openPath st.path whats ∧
          st'.shelf m =
            (st.shelf m).replay m.pathSep root (m.editLog st.path st.pending whats) ∧
          st'.duplicates = st.duplicates) := by
  induction lines with
  | nil => exact fun _ h => ⟨rfl, fun _ => ⟨h, rfl, rfl, rfl⟩⟩
  | cons text lines ih =>
    intro st line h
    obtain ⟨hfailure, hfollows⟩ := h.step line (m.classify text)
    simp only [List.map_cons, Markup.firstFailure?_cons, Parsing.run]
    generalize hr : st.step m root line (m.classify text) = r at hfailure hfollows
    obtain ⟨st₁, e⟩ := r
    dsimp only at hfailure hfollows
    cases e with
    | some e =>
      rw [← hfailure]
      exact ⟨rfl, fun hnone => by cases hnone⟩
    | none =>
      have hnext := hfollows hfailure.symm
      obtain ⟨hrun, hend⟩ := ih (line + 1) hnext.steady
      rw [← hfailure, Option.none_or, ← hnext.path]
      refine ⟨hrun, fun hnone => ?_⟩
      obtain ⟨hsteady, hpath, hshelf, hduplicates⟩ := hend hnone
      refine ⟨hsteady, ?_, hshelf.trans ?_, hduplicates.trans hnext.duplicates⟩
      · rw [hpath, hnext.path]
        rfl
      · rw [hnext.shelf, hnext.path, hnext.pending, Markup.editLog_cons, key]
        cases (m.classify text).edits? m st.pending <;> rfl

/-- At the end of a source all templates are stored, if no sub-template is open. -/
theorem Steady.close (h : st.Steady m root) (hduplicates : st.duplicates = []) :
    (st.close m).2 =
        (if st.path = [] then none else some (.parse (.unterminatedNesting st.path))) ∧
      (st.path = [] → (st.close m).1.catalog.get? = st.shelf m) := by
  obtain ⟨hcatalog, hstore⟩ := h.store
  unfold Parsing.close
  by_cases hpath : st.path = []
  · rw [if_neg (by simp [hpath]), if_pos hpath]
    dsimp only
    rw [hstore, hduplicates]
    exact ⟨rfl, fun _ => hcatalog⟩
  · rw [if_pos (by simpa using hpath), if_neg hpath]
    exact ⟨rfl, fun h => absurd h hpath⟩

@[simp] theorem keyOf_nil (sep : String) : keyOf sep [] = "" := String.intercalate_nil

/-- A parse begins steadily if its catalogue has no outermost template, and the right names. -/
theorem steady_start {c : Catalog ω} (hroot : c.get? "" = none)
    (hnamed : Shelf.Named m.pathSep root c.get?) :
    (Parsing.start c).Steady m root ∧ (Parsing.start c).shelf m = c.get? := by
  have hkey : (Parsing.start c).key m = "" := keyOf_nil m.pathSep
  have hshelf : (Parsing.start c).shelf m = c.get? := by
    funext k
    unfold shelf
    split
    · next hk =>
      rw [hk, hkey, hroot]
      rfl
    · rfl
  refine ⟨⟨fun _ => ?_, ?_⟩, hshelf⟩
  · rw [hkey]
    exact hroot
  · rw [hshelf]
    exact hnamed

end Parsing

/-- **The course of a parse.**  A parse into a catalogue without an outermost template, in which all
templates have the right names, is stopped by the first line that fails, by a fault of the source,
or by a sub-template that is open at the end.  If nothing stops it, each template is what the edits
of the source's log make of it. -/
theorem Catalog.parse_course {m : Markup} {root : String} {c : Catalog ω} (source : Lines)
    (hroot : c.get? "" = none) (hnamed : Shelf.Named m.pathSep root c.get?) :
    let whats := source.lines.map m.classify
    (c.parse m root source).2 = (m.firstFailure? [] 1 whats).or ((source.fault.map .fault).or
        (if Markup.openPath [] whats = [] then none
          else some (.parse (.unterminatedNesting (Markup.openPath [] whats))))) ∧
      ((c.parse m root source).2 = none →
        (c.parse m root source).1.get? =
          Shelf.replay m.pathSep root c.get? (m.editLog [] "" whats)) := by
  intro whats
  obtain ⟨hstart, hshelf⟩ := Parsing.steady_start hroot hnamed
  obtain ⟨hrun, hend⟩ := hstart.run source.lines 1
  have hpath : (Parsing.start c).path = [] := rfl
  rw [hpath] at hrun hend
  unfold Catalog.parse
  generalize Parsing.run m root 1 source.lines (.start c) = r at hrun hend
  obtain ⟨st, e⟩ := r
  dsimp only at hrun hend
  cases e with
  | some e =>
    dsimp only
    rw [← hrun]
    exact ⟨rfl, nofun⟩
  | none =>
    obtain ⟨hsteady, hpath', hshelf', hduplicates⟩ := hend hrun.symm
    rw [← hrun, Option.none_or]
    cases hfault : source.fault with
    | some f => exact ⟨rfl, nofun⟩
    | none =>
      obtain ⟨hclose, hstored⟩ := hsteady.close (hduplicates.trans rfl)
      dsimp only
      rw [Option.map_none, Option.none_or, ← hpath']
      refine ⟨hclose, fun hnone => ?_⟩
      rw [hclose] at hnone
      by_cases hopen : st.path = []
      · rw [hstored hopen, hshelf', hshelf]
        rfl
      · rw [if_neg hopen] at hnone
        cases hnone

/-- What stops a parse into an empty catalogue is seen from the lines alone. -/
theorem Catalog.parse_nil_eq_none_iff {m : Markup} {root : String} {lines : List String} :
    (Catalog.parse ([] : Catalog ω) m root ⟨lines, none⟩).2 = none ↔
      (m.firstFailure? [] 1 (lines.map m.classify) : Option (Failure ω)) = none ∧
        Markup.openPath [] (lines.map m.classify) = [] := by
  rw [(parse_course ⟨lines, none⟩ rfl Shelf.named_nil).1, Option.or_eq_none_iff]
  refine and_congr_right fun _ => ?_
  rw [Option.map_none, Option.none_or]
  split
  · next hpath => simp [hpath]
  · next hpath => simp [hpath]

end Stencil
