import Stencil.Proofs.Shared.Reports
import Stencil.Proofs.Source.Continued

/-!
# Catalogues that are parsed into again

A catalogue of handles may be parsed into several times.  What a parse stores under a key that is
there goes to the template of its handle, so whoever has that template sees it continued; under
other keys new templates are stored.  If the later source adds nothing to the outermost template,
all templates are in the end those of the two sources in a row.

## Main definitions

* `Workspace.Separate` — catalogues that have no handle under two keys.
* `Workspace.Stores` — templates are stored under their keys.

## Main results

* `Workspace.Separate.parse` — a parse stores what it makes.
* `Workspace.parse_continued` — two parses are one parse of the sources in a row.
-/

namespace Stencil
namespace Workspace

variable {w w' : Workspace} {c c' : SharedCatalog} {m : Markup} {root : String}

/-! ### Handles -/

/-- The template that a catalogue has under a key is that of the handle. -/
theorem get?_catalog (w : Workspace) (c : SharedCatalog) (k : String) :
    (w.catalog c).get? k = (handle? c k).map w.template := by
  induction c with
  | nil => rfl
  | cons e c ih =>
    obtain ⟨key, id⟩ := e
    simp only [catalog, Catalog.get?, handle?, List.map_cons] at ih ⊢
    rw [lookup_cons_ite, lookup_cons_ite]
    split
    · rfl
    · exact ih

/-- A handle under a key that is free goes to the end. -/
theorem putHandle_of_free {key : String} (h : handle? c key = none) (id : TemplateId) :
    putHandle c key id = c ++ [(key, id)] := by
  induction c with
  | nil => rfl
  | cons e c ih =>
    obtain ⟨k, old⟩ := e
    rw [handle?, lookup_cons_ite] at h
    split at h
    · cases h
    · next hk => rw [putHandle, if_neg (Ne.symm hk), ih h, List.cons_append]

theorem handle?_append (key k : String) (id : TemplateId) :
    handle? (c ++ [(key, id)]) k = (handle? c k).or (if k = key then some id else none) := by
  rw [handle?, List.lookup_append, lookup_cons_ite]
  rfl

/-- The handles of a catalogue are those of templates, each under one key, and each key is there
once. -/
structure Separate (w : Workspace) (c : SharedCatalog) : Prop where
  /-- The templates are there. -/
  inRange : ∀ {k id}, handle? c k = some id → id.index < w.templates.size
  /-- No template is under two keys. -/
  injective : ∀ {k k' id}, handle? c k = some id → handle? c k' = some id → k = k'
  /-- No key is there twice. -/
  nodup : (c.map (·.1)).Nodup

theorem separate_nil (w : Workspace) : w.Separate [] := ⟨nofun, nofun, List.Pairwise.nil⟩

theorem Separate.nodup_catalog (h : w.Separate c) : ((w.catalog c).map (·.1)).Nodup := by
  have hkeys : (w.catalog c).map (·.1) = c.map (·.1) := by
    rw [catalog, List.map_map]
    rfl
  rw [hkeys]
  exact h.nodup

/-! ### Storing -/

/-- The templates of a catalogue are stored: each under its key, in the template of the handle that
is there, or in a new one. -/
structure Stores (w : Workspace) (c : SharedCatalog) (parsed : Catalog SharedWrap) (w' : Workspace)
    (c' : SharedCatalog) : Prop where
  /-- The catalogue still has no handle under two keys. -/
  separate : w'.Separate c'
  /-- All handles are as they were. -/
  handle : ∀ k id, handle? c k = some id → handle? c' k = some id
  /-- The templates are there under their keys, and all others as they were. -/
  get? : ∀ k, (w'.catalog c').get? k = (parsed.get? k).or ((w.catalog c).get? k)

theorem get?_singleton (key k : String) (t : SharedTemplate) :
    Catalog.get? [(key, t)] k = if k = key then some t else none := lookup_cons_ite k key t []

/-- A template is stored in that of a handle: no other key has this handle. -/
theorem Separate.setTemplate (h : w.Separate c) {key : String} {id : TemplateId}
    (hid : handle? c key = some id) (t : SharedTemplate) :
    w.Stores c [(key, t)] (w.setTemplate id t) c := by
  refine ⟨⟨?_, h.injective, h.nodup⟩, fun _ _ hk => hk, fun k => ?_⟩
  · intro k id' hk
    rw [size_setTemplate]
    exact h.inRange hk
  · rw [get?_catalog, get?_catalog, get?_singleton]
    by_cases hk : k = key
    · subst hk
      rw [hid, if_pos rfl, Option.map_some, template_setTemplate (h.inRange hid), if_pos rfl]
      rfl
    · rw [if_neg hk, Option.none_or]
      cases hid' : handle? c k with
      | none => rfl
      | some id' =>
        have hne : id' ≠ id := by
          rintro rfl
          exact hk (h.injective hid' hid)
        rw [Option.map_some, Option.map_some, template_setTemplate (h.inRange hid), if_neg hne]

/-- A new template has a handle that no key has, so it may go under a key that is free. -/
theorem Separate.concat (h : w.Separate c) {key : String} (hfree : handle? c key = none)
    (t : SharedTemplate) : (w.addTemplate t).2.Separate (c ++ [(key, (w.addTemplate t).1)]) := by
  have hsize : (w.addTemplate t).2.templates.size = w.templates.size + 1 := Array.size_push _
  -- a handle is an old one, or the new one under the new key
  have hcases {k : String} {id : TemplateId}
      (hk : handle? (c ++ [(key, (w.addTemplate t).1)]) k = some id) :
      handle? c k = some id ∧ id.index < w.templates.size ∨
        k = key ∧ id = (w.addTemplate t).1 := by
    rw [handle?_append] at hk
    rcases Option.or_eq_some_iff.1 hk with hk | ⟨-, hk⟩
    · exact .inl ⟨hk, h.inRange hk⟩
    · split at hk
      · next hkey => exact .inr ⟨hkey, (Option.some.inj hk).symm⟩
      · cases hk
  refine ⟨fun hk => ?_, fun hk hk' => ?_, ?_⟩
  · rw [hsize]
    rcases hcases hk with ⟨-, hlt⟩ | ⟨-, rfl⟩
    · exact Nat.lt_succ_of_lt hlt
    · exact Nat.lt_succ_self _
  · rcases hcases hk with ⟨hk, hlt⟩ | ⟨rfl, rfl⟩
    · rcases hcases hk' with ⟨hk', -⟩ | ⟨-, rfl⟩
      · exact h.injective hk hk'
      · exact absurd hlt (Nat.lt_irrefl _)
    · rcases hcases hk' with ⟨-, hlt⟩ | ⟨rfl, -⟩
      · exact absurd hlt (Nat.lt_irrefl _)
      · rfl
  · rw [List.map_append, List.map_singleton, List.nodup_append]
    refine ⟨h.nodup, by simp, ?_⟩
    intro k hk k' hk' hsame
    obtain ⟨id, hfound⟩ := exists_lookup_of_mem_keys hk
    rw [hsame, List.mem_singleton.1 hk'] at hfound
    rw [handle?, hfound] at hfree
    cases hfree

/-- A template is stored under a free key in a new one. -/
theorem Separate.addTemplate (h : w.Separate c) {key : String} (hfree : handle? c key = none)
    (t : SharedTemplate) :
    w.Stores c [(key, t)] (w.addTemplate t).2 (c ++ [(key, (w.addTemplate t).1)]) := by
  refine ⟨h.concat hfree t, fun k id hk => ?_, fun k => ?_⟩
  · rw [handle?_append, hk, Option.some_or]
  · rw [get?_catalog, get?_catalog, get?_singleton, handle?_append]
    by_cases hk : k = key
    · subst hk
      rw [hfree, if_pos rfl, if_pos rfl, Option.none_or, Option.map_some,
        template_addTemplate_self]
      rfl
    · rw [if_neg hk, if_neg hk, Option.or_none, Option.none_or]
      cases hid : handle? c k with
      | none => rfl
      | some id =>
        rw [Option.map_some, Option.map_some, template_addTemplate_of_lt _ (h.inRange hid)]

/-- A parsed template is stored if it has the name that belongs to its key. -/
theorem Separate.storeParsed (h : w.Separate c) {entry : String × SharedTemplate}
    (hname : entry.2.name = Parsing.nameOf m.pathSep root entry.1) :
    w.Stores c [entry] (w.storeParsed m root c entry).1 (w.storeParsed m root c entry).2 := by
  unfold Workspace.storeParsed
  cases hid : handle? c entry.1 with
  | some id =>
    dsimp only
    rw [if_pos hname]
    exact h.setTemplate hid entry.2
  | none =>
    dsimp only
    rw [putHandle_of_free hid]
    exact h.addTemplate hid entry.2

/-- A catalogue without a key twice is stored as a whole. -/
theorem Separate.storeAll : ∀ (parsed : Catalog SharedWrap) {w : Workspace} {c : SharedCatalog},
    w.Separate c → (parsed.map (·.1)).Nodup →
    (∀ e ∈ parsed, e.2.name = Parsing.nameOf m.pathSep root e.1) →
      let r := parsed.foldl (fun (w, c) entry => w.storeParsed m root c entry) (w, c)
      w.Stores c parsed r.1 r.2 := by
  intro parsed
  induction parsed with
  | nil => exact fun h _ _ => ⟨h, fun _ _ hk => hk, fun _ => rfl⟩
  | cons entry rest ih =>
    intro w c h hnodup hnames
    rw [List.map_cons, List.nodup_cons] at hnodup
    have hfirst := h.storeParsed (hnames entry List.mem_cons_self)
    have hrest := ih hfirst.separate hnodup.2 fun e he => hnames e (List.mem_cons_of_mem _ he)
    refine ⟨hrest.separate, fun k id hk => hrest.handle k id (hfirst.handle k id hk), fun k => ?_⟩
    obtain ⟨key, t⟩ := entry
    rw [List.foldl_cons, hrest.get?, hfirst.get?]
    simp only [Catalog.get?, lookup_cons_ite]
    by_cases hk : k = key
    · subst hk
      have hnone : rest.lookup k = none := by
        refine List.lookup_eq_none_iff.2 fun e he => bne_iff_ne.2 fun hsame => hnodup.1 ?_
        rw [show (k, t).1 = e.1 from hsame]
        exact List.mem_map_of_mem he
      rw [hnone, Option.none_or, if_pos rfl, if_pos rfl]
    · rw [if_neg hk, if_neg hk]
      rfl

/-- **A parse stores what it makes.** -/
theorem Separate.parse (h : w.Separate c) (source : Lines)
    (hnamed : Shelf.Named m.pathSep root ((w.catalog c).parse m root source).1.get?) :
    w.Stores c ((w.catalog c).parse m root source).1 (w.parse c m root source).1
      (w.parse c m root source).2.1 := by
  have hnodup := Catalog.nodup_parse h.nodup_catalog m root source
  refine Separate.storeAll _ h hnodup fun e he => ?_
  exact hnamed e.1 e.2 (lookup_eq_some_of_mem hnodup he)

/-! ### Two parses -/

/-- What stops a parse into an empty catalogue does not depend on the workspace. -/
theorem error_parse_nil (w : Workspace) (m : Markup) (root : String) (source : Lines) :
    (w.parse [] m root source).2.2 = (Catalog.parse [] m root source).2 := rfl

/-- **A parse that is continued.**  Let a source be parsed into an empty catalogue, and let another
one, which could be parsed by itself, add nothing to the outermost template: its lines outside of
sub-templates only start these, the break before dropped, or end them.  Parsed into the same
catalogue, it gives what both of them in a row give when they are parsed at once.  All templates
keep their handles: those that the second source opens are continued by what it adds to them, and
the others are left alone. -/
theorem parse_continued (w : Workspace) (m : Markup) (root : String) {lines more : List String}
    (hlines : (w.parse [] m root ⟨lines, none⟩).2.2 = none)
    (hmore : (w.parse [] m root ⟨more, none⟩).2.2 = none)
    (hnested : ¬ Markup.Contributes (more.map m.classify)) :
    let first := w.parse [] m root ⟨lines, none⟩
    let second := first.1.parse first.2.1 m root ⟨more, none⟩
    let whole := w.parse [] m root ⟨lines ++ more, none⟩
    second.2.2 = none ∧ whole.2.2 = none ∧
      (second.1.catalog second.2.1).get? = (whole.1.catalog whole.2.1).get? ∧
      ∀ k id, handle? first.2.1 k = some id →
        handle? second.2.1 k = some id ∧
          second.1.template id = (first.1.template id).edits
            ((m.editLog [] "" (more.map m.classify)).editsTo m.pathSep k) ∧
          ((∀ q, Markup.Opened [] (more.map m.classify) q → Parsing.keyOf m.pathSep q ≠ k) →
            second.1.template id = first.1.template id) := by
  intro first second whole
  have hnone (k : String) : (w.catalog []).get? k = none := rfl
  -- the first go
  have hfirst := (separate_nil w).parse ⟨lines, none⟩ (Catalog.named_parse hlines)
  have hfirstGet : (first.1.catalog first.2.1).get? =
      (Catalog.parse (w.catalog []) m root ⟨lines, none⟩).1.get? :=
    funext fun k => by rw [hfirst.get?, hnone, Option.or_none]
  have hnamed : Shelf.Named m.pathSep root (first.1.catalog first.2.1).get? := by
    rw [hfirstGet]
    exact Catalog.named_parse hlines
  -- the second go
  obtain ⟨hsecondNone, hsecondGet⟩ := Catalog.parse_onto hnamed hmore hnested
  have hsecond := hfirst.separate.parse ⟨more, none⟩ (by
    rw [hsecondGet]
    exact hnamed.replay _)
  have hkept (k : String) : (second.1.catalog second.2.1).get? k =
      Shelf.replay m.pathSep root (first.1.catalog first.2.1).get?
        (m.editLog [] "" (more.map m.classify)) k := by
    rw [hsecond.get?, hsecondGet]
    cases hk : (first.1.catalog first.2.1).get? k with
    | none => exact Option.or_none
    | some t => rw [Shelf.replay_of_some _ hk, Option.some_or]
  -- both at once
  obtain ⟨hwholeNone, hwholeGet⟩ := Catalog.parse_append hlines hmore hnested
  have hwhole := (separate_nil w).parse ⟨lines ++ more, none⟩ (Catalog.named_parse hwholeNone)
  refine ⟨hsecondNone, hwholeNone, funext fun k => ?_, fun k id hid => ?_⟩
  · rw [hkept, hwhole.get?, hnone, Option.or_none, hfirstGet]
    exact (congrFun hwholeGet k).symm
  · have hid' := hsecond.handle k id hid
    have hstart : (first.1.catalog first.2.1).get? k = some (first.1.template id) := by
      rw [get?_catalog, hid, Option.map_some]
    have hend := hkept k
    rw [Shelf.replay_of_some _ hstart, get?_catalog, hid', Option.map_some] at hend
    have hedits := Option.some.inj hend
    refine ⟨hid', hedits, fun hother => ?_⟩
    rw [hedits, Markup.editsTo_of_not_contributes hnested hother]
    rfl

/-- A source that opens a row and adds a line of text to it. -/
def rowLines : List String := ["<!--\\ >>> row >>> -->", "b", "<!-- <<< row <<< -->"]

/-- A row that is parsed twice has its text twice. -/
theorem parse_continued_row :
    let first := empty.parse [] .standard "page" ⟨rowLines, none⟩
    let second := first.1.parse first.2.1 .standard "page" ⟨rowLines, none⟩
    second.2.2 = none ∧ handle? first.2.1 "row" = some ⟨0⟩ ∧ handle? second.2.1 "row" = some ⟨0⟩ ∧
      second.1.template ⟨0⟩ = (first.1.template ⟨0⟩).edits [.addStatic [], .addStatic [98]] := by
  dsimp only
  have hwhats : rowLines.map Markup.standard.classify = [.start (.ok false) (.ok (some "row")),
      .plain "b", .finish (.ok (some "row")) (.ok true)] := by
    decide +kernel
  have hparse : (empty.parse [] .standard "page" ⟨rowLines, none⟩).2.2 = none := by
    rw [error_parse_nil, Catalog.parse_nil_eq_none_iff, hwhats]
    exact ⟨rfl, rfl⟩
  have hnested : ¬ Markup.Contributes (rowLines.map Markup.standard.classify) := by
    rw [hwhats]
    rintro ⟨_ | ⟨b, _ | ⟨b', _ | ⟨b'', before⟩⟩⟩, what, after, heq, hopen, hadds⟩
    · cases heq
      cases hadds
    · cases heq
      cases hopen
    · cases heq
      cases hopen
    · simp at heq
  have hcontinued := parse_continued empty .standard "page" hparse hparse hnested
  have hhandle : handle? (empty.parse [] .standard "page" ⟨rowLines, none⟩).2.1 "row" =
      some ⟨0⟩ := by decide +kernel
  dsimp only at hcontinued
  obtain ⟨hnone, -, -, hhandles⟩ := hcontinued
  obtain ⟨hsame, hedits, -⟩ := hhandles "row" ⟨0⟩ hhandle
  rw [hwhats] at hedits
  exact ⟨hnone, hhandle, hsame, hedits⟩

end Workspace
end Stencil
