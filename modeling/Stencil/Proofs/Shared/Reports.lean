import Stencil.Proofs.Bound.Closed
import Stencil.Proofs.Source.Rendering
import Stencil.Workspace

/-!
# Reports one after the other

Reports share the templates of a catalogue.  A report binds its content in a place of its own, so
most of what it does is not seen by later ones: neither its data nor its failure.  But a report that
escapes leaves its wraps on the template, and all later reports of that template escape as well.

## Main definitions

* `Workspace.IsParsed` — catalogues that are filled by parsing alone.
* `ReportCall`, `Workspace.reports` — reports as values, and one after the other.
* `Workspace.Dresses` — how templates change under reports.

## Main results

* `Workspace.IsParsed.hasBare` — the templates of such a catalogue have no wraps.
* `Workspace.Dresses.reports` — what reports leave of the templates.
* `Workspace.report_reports` — what a report gives after others.
-/

namespace Stencil
namespace Workspace

variable {w : Workspace} {c : SharedCatalog} {id other : TemplateId}

/-! ### Templates -/

@[simp] theorem size_setTemplate (w : Workspace) (id : TemplateId) (t : SharedTemplate) :
    (w.setTemplate id t).templates.size = w.templates.size := Array.size_setIfInBounds

theorem template_setTemplate (h : id.index < w.templates.size) (t : SharedTemplate)
    (other : TemplateId) :
    (w.setTemplate id t).template other = if other = id then t else w.template other := by
  obtain ⟨i⟩ := id
  obtain ⟨j⟩ := other
  rw [template, template, setTemplate, Array.getD_eq_getD_getElem?, Array.getD_eq_getD_getElem?,
    Array.getElem?_setIfInBounds]
  by_cases hij : i = j
  · subst hij
    rw [if_pos rfl, if_pos rfl, if_pos h]
    rfl
  · have hne : (TemplateId.mk j) ≠ ⟨i⟩ := fun heq => hij (congrArg TemplateId.index heq).symm
    rw [if_neg hij, if_neg hne]

theorem template_addTemplate_self (w : Workspace) (t : SharedTemplate) :
    (w.addTemplate t).2.template (w.addTemplate t).1 = t := by
  simp [template, addTemplate]

theorem template_addTemplate_of_lt (t : SharedTemplate) (h : other.index < w.templates.size) :
    (w.addTemplate t).2.template other = w.template other := by
  simp [template, addTemplate, Array.getElem?_push, Nat.ne_of_lt h]

/-! ### Catalogues -/

theorem mem_putHandle {key : String} {e : String × TemplateId} (h : e ∈ putHandle c key id) :
    e = (key, id) ∨ e ∈ c := by
  induction c with
  | nil => exact .inl (List.mem_singleton.1 h)
  | cons d c ih =>
    obtain ⟨k, old⟩ := d
    unfold putHandle at h
    split at h
    · next hk =>
      rcases List.mem_cons.1 h with h | h
      · exact .inl (by rw [h, hk])
      · exact .inr (List.mem_cons_of_mem _ h)
    · rcases List.mem_cons.1 h with h | h
      · exact .inr (h ▸ List.mem_cons_self)
      · exact (ih h).imp_right (List.mem_cons_of_mem _)

theorem mem_of_handle? {key : String} (h : handle? c key = some id) : (key, id) ∈ c :=
  mem_of_lookup_eq_some h

/-- The handles of a catalogue are those of templates without wraps. -/
def HasBare (w : Workspace) (c : SharedCatalog) : Prop :=
  ∀ e ∈ c, e.2.index < w.templates.size ∧ (w.template e.2).IsBare

theorem HasBare.storeParsed (h : w.HasBare c) (m : Markup) (root : String)
    {entry : String × SharedTemplate} (hentry : entry.2.IsBare) :
    (w.storeParsed m root c entry).1.HasBare (w.storeParsed m root c entry).2 := by
  unfold Workspace.storeParsed
  split
  · next id hid =>
    split
    · have hlt := (h _ (mem_of_handle? hid)).1
      intro e he
      rw [size_setTemplate, template_setTemplate hlt]
      refine ⟨(h e he).1, ?_⟩
      split
      · exact hentry
      · exact (h e he).2
    · exact h
  · intro e he
    have hsize : (w.addTemplate entry.2).2.templates.size = w.templates.size + 1 :=
      Array.size_push _
    dsimp only at he ⊢
    rw [hsize]
    rcases mem_putHandle he with rfl | he
    · rw [template_addTemplate_self]
      exact ⟨Nat.lt_succ_self _, hentry⟩
    · obtain ⟨hlt, hbare⟩ := h e he
      rw [template_addTemplate_of_lt _ hlt]
      exact ⟨Nat.lt_succ_of_lt hlt, hbare⟩

theorem HasBare.storeAll (m : Markup) (root : String) :
    ∀ (parsed : Catalog SharedWrap) {w : Workspace} {c : SharedCatalog}, w.HasBare c →
      parsed.All Template.IsBare →
        let r := parsed.foldl (fun (w, c) entry => w.storeParsed m root c entry) (w, c)
        r.1.HasBare r.2 := by
  intro parsed
  induction parsed with
  | nil => exact fun h _ => h
  | cons entry rest ih =>
    intro w c h hall
    exact ih (h.storeParsed m root (hall entry List.mem_cons_self))
      fun e he => hall e (List.mem_cons_of_mem _ he)

/-- Parsing leaves templates without wraps. -/
theorem HasBare.parse (h : w.HasBare c) (m : Markup) (root : String) (source : Lines) :
    (w.parse c m root source).1.HasBare (w.parse c m root source).2.1 := by
  have hcatalog : (w.catalog c).All Template.IsBare := by
    intro e he
    obtain ⟨entry, hentry, rfl⟩ := List.mem_map.1 he
    exact (h entry hentry).2
  have hparsed := (Catalog.parse_keeps Template.bareBuilding_isBare hcatalog m root source).1
  exact h.storeAll m root _ hparsed

theorem HasBare.putHandle {name : String} (h : w.HasBare c) (hid : handle? c name = some id)
    (key : String) : w.HasBare (putHandle c key id) := by
  intro e he
  rcases mem_putHandle he with rfl | he
  · exact h (name, id) (mem_of_handle? hid)
  · exact h e he

/-- The templates of the catalogue all come from parsing, which left the workspace as it is. -/
inductive IsParsed : Workspace → SharedCatalog → Prop
  /-- A catalogue with nothing in it. -/
  | empty (w : Workspace) : IsParsed w []
  /-- What parsing makes of one, whether or not it fails. -/
  | parse {w : Workspace} {c : SharedCatalog} (h : IsParsed w c) (m : Markup) (root : String)
    (source : Lines) : IsParsed (w.parse c m root source).1 (w.parse c m root source).2.1
  /-- One with a template stored under another key as well. -/
  | store {w : Workspace} {c : SharedCatalog} (h : IsParsed w c) {id : TemplateId} {name : String}
    (hid : handle? c name = some id) (key : String) : IsParsed w (putHandle c key id)

theorem IsParsed.hasBare (h : w.IsParsed c) : w.HasBare c := by
  induction h with
  | empty w => exact fun e he => by cases he
  | parse _ m root source ih => exact ih.parse m root source
  | store _ hid key ih => exact ih.putHandle hid key

end Workspace

/-! ### Reports -/

/-- A report that is asked for. -/
structure ReportCall where
  /-- The key of the template. -/
  key : String
  /-- What is asked for. -/
  options : ReportOptions
  /-- The data to fill it from. -/
  data : Value

/-- The report, escaped for HTML if that is asked for here or was before. -/
def ReportCall.escaping (call : ReportCall) (escaped : Bool) : ReportCall :=
  { call with options := { call.options with escapeHtml := call.options.escapeHtml || escaped } }

namespace Workspace

variable {w w' : Workspace} {c : SharedCatalog}

/-- A report of a catalogue. -/
def reportCall (w : Workspace) (c : SharedCatalog) (call : ReportCall) :
    Workspace × Except (Failure SharedWrap) Bytes :=
  w.report c call.key call.options call.data

/-- The workspace after reports of a catalogue, some of which may fail. -/
def reports (w : Workspace) (c : SharedCatalog) (calls : List ReportCall) : Workspace :=
  calls.foldl (fun w call => (w.reportCall c call).1) w

/-- Whether one of the reports is to escape the template that was found. -/
def isEscaped (c : SharedCatalog) (calls : List ReportCall) (found : Option TemplateId) : Bool :=
  calls.any fun call => call.options.escapeHtml && decide (handle? c call.key = found)

/-- Since `w`, nothing has happened to the templates but that some were dressed. -/
structure Dresses (w : Workspace) (dressed : TemplateId → Bool) (w' : Workspace) : Prop where
  /-- There are as many templates. -/
  size : w'.templates.size = w.templates.size
  /-- There are the same adapters. -/
  adapters : w'.adapters = w.adapters
  /-- Some of the templates are dressed. -/
  template : ∀ id, w'.template id = (w.template id).dressed (dressed id)

theorem dresses_refl (w : Workspace) : w.Dresses (fun _ => false) w := ⟨rfl, rfl, fun _ => rfl⟩

variable {dressed : TemplateId → Bool}

/-- A report dresses its template if it escapes, and changes nothing else. -/
theorem Dresses.reportCall (hw : w.HasBare c) (h : w.Dresses dressed w') (call : ReportCall) :
    w.Dresses (fun id => call.options.escapeHtml && decide (handle? c call.key = some id) ||
      dressed id) (w'.reportCall c call).1 := by
  unfold Workspace.reportCall report
  cases hid : handle? c call.key with
  | none =>
    -- without a template the report fails, and nothing is changed
    refine ⟨h.size, h.adapters, fun other => ?_⟩
    rw [h.template other]
    simp
  | some id =>
    obtain ⟨hlt, hbare⟩ := hw _ (mem_of_handle? hid)
    have hleft := (hbare.wellFormed.dressed (dressed id)).report_fst call.key w'.adapters
      call.options call.data (w'.treeOf w'.bounds.size) w'.runs
    dsimp only
    refine ⟨(size_setTemplate _ _ _).trans h.size, h.adapters, fun other => ?_⟩
    have hset := template_setTemplate (h.size.symm ▸ hlt)
      ((w'.template id).report call.key w'.adapters call.options call.data
        (w'.treeOf w'.bounds.size) w'.runs).1 other
    refine hset.trans ?_
    split
    · next heq =>
      subst heq
      -- what was dressed before is dressed once more, which makes no difference
      rw [h.template, hleft, Template.dressed_dressed]
      simp
    · next hne =>
      rw [h.template other]
      simp [Ne.symm hne]

/-- A report of a dressed template gives what one of the template gives that escapes. -/
theorem Dresses.reportCall_snd (hw : w.HasBare c) (h : w.Dresses dressed w') (call : ReportCall)
    {escaped : Bool} (hescaped : ∀ id, handle? c call.key = some id → dressed id = escaped) :
    (w'.reportCall c call).2 = (w.reportCall c (call.escaping escaped)).2 := by
  unfold Workspace.reportCall report ReportCall.escaping
  cases hid : handle? c call.key with
  | none => rfl
  | some id =>
    have hbare := (hw _ (mem_of_handle? hid)).2
    have hwraps : ∀ s wrap, ((w.template id).dressed
        (call.options.escapeHtml || escaped)).wrapAt s = some wrap → wrap = Wrap.html := by
      intro s wrap hs
      rw [hbare.wrapAt_dressed] at hs
      split at hs
      · exact (Option.some.inj hs).symm
      · cases hs
    dsimp only
    rw [h.template, hescaped id hid, h.adapters, hbare.wellFormed.report_eq,
      (hbare.wellFormed.dressed escaped).report_eq, Template.dressed_dressed]
    exact Template.report_eq_of_wraps hwraps _ _ _ _ _ _ _ _

/-- Reports dress the templates that one of them escapes. -/
theorem Dresses.reports (hw : w.HasBare c) : ∀ (calls : List ReportCall)
    {w' : Workspace} {dressed : TemplateId → Bool}, w.Dresses dressed w' →
      w.Dresses (fun id => isEscaped c calls (some id) || dressed id) (w'.reports c calls) := by
  intro calls
  induction calls with
  | nil => exact fun h => h
  | cons call calls ih =>
    intro w' dressed h
    have hrest := ih (h.reportCall hw call)
    refine ⟨hrest.size, hrest.adapters, fun id => (hrest.template id).trans ?_⟩
    rw [isEscaped, isEscaped, List.any_cons, Bool.or_left_comm, Bool.or_assoc]

/-- **What a report gives after others.**  The others leave the wraps on the templates that they
escape, and nothing else that a report could see: whatever they were filled from, and whether or
not they failed, the report gives what it gives when it is the first, except that it also escapes if
its template was escaped before. -/
theorem report_reports (h : w.IsParsed c) (earlier : List ReportCall) :
    (∀ id, (w.reports c earlier).template id =
      (w.template id).dressed (isEscaped c earlier (some id))) ∧
    ∀ call : ReportCall, ((w.reports c earlier).reportCall c call).2 =
      (w.reportCall c (call.escaping (isEscaped c earlier (handle? c call.key)))).2 := by
  have hdresses := (dresses_refl w).reports h.hasBare earlier
  refine ⟨fun id => ?_, fun call => ?_⟩
  · rw [hdresses.template, Bool.or_false]
  · refine hdresses.reportCall_snd h.hasBare call fun id hid => ?_
    rw [Bool.or_false, hid]

/-- The report of the root template from data in which `x` is a text. -/
def rootCall (text : String) (escapeHtml : Bool) : ReportCall where
  key := ""
  options := ⟨false, escapeHtml⟩
  data := .map [(.str "x", .str text)]

/-- What parsing a source with one placeholder leaves. -/
def oneMark : Workspace × SharedCatalog × Option (Failure SharedWrap) :=
  empty.parse [] .marks "" ⟨["`$x`"], none⟩

theorem report_reports_marks :
    ((oneMark.1.reports oneMark.2.1 [rootCall "a" true]).reportCall oneMark.2.1
      (rootCall "<" false)).2 = .ok (Utf8.encode "&lt;".toList) := by
  have hparsed : oneMark.1.IsParsed oneMark.2.1 := (IsParsed.empty empty).parse _ _ _
  refine ((report_reports hparsed [rootCall "a" true]).2 (rootCall "<" false)).trans ?_
  rfl

/-- A report need not give what it gives on templates that were just parsed. -/
theorem report_ne_parsed_marks : ¬ ∀ (w : Workspace) (c : SharedCatalog), w.IsParsed c →
    ∀ (earlier : List ReportCall) (call : ReportCall),
      ((w.reports c earlier).reportCall c call).2 = (w.reportCall c call).2 := by
  intro h
  have hparsed : oneMark.1.IsParsed oneMark.2.1 := (IsParsed.empty empty).parse _ _ _
  have heq := h _ _ hparsed [rootCall "a" true] (rootCall "<" false)
  have hlater : ((oneMark.1.reports oneMark.2.1 [rootCall "a" true]).reportCall oneMark.2.1
      (rootCall "<" false)).2 = .ok (Utf8.encode "&lt;".toList) := rfl
  have hfirst : (oneMark.1.reportCall oneMark.2.1 (rootCall "<" false)).2 =
      .ok (Utf8.encode "<".toList) := rfl
  rw [hlater, hfirst, Except.ok.injEq] at heq
  exact absurd heq (by decide)

end Workspace
end Stencil
