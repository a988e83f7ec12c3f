import Stencil.Proofs.Source.Keeps
import Stencil.Proofs.Source.Scene

/-!
# Parsing follows scenes

A state of a parse shows a scene: the template that is open, be it stored or not, has the parts that
the scene has under the open key, and the other templates are in the catalogue.  A line that does
not fail takes such a state to one that shows the next scene.  While a template is open without
being stored, nothing else has its key; so no template is a duplicate.

## Main definitions

* `Template.Gains` — a template with parts added to it.
* `Parsing.Shows` — a state of a parse shows a scene.

## Main results

* `Parsing.Shows.step`, `Parsing.Shows.run` — steps and runs follow scenes.
* `Catalog.parse_follows` — what a whole source is parsed into.
-/

namespace Stencil

variable {ω : Type}

/-! ### Building -/

/-- A template with parts added to it. -/
structure Template.Gains (t : Template ω) (added : List (Part ω)) (t' : Template ω) : Prop where
  /-- It is well-formed. -/
  wellFormed : t'.WellFormed
  /-- The new parts stand behind the others. -/
  parts : t'.parts = t.parts ++ added

namespace Template.Gains

variable {t t' t'' : Template ω} {added added' : List (Part ω)}

theorem refl (h : t.WellFormed) : t.Gains [] t := ⟨h, (List.append_nil _).symm⟩

theorem trans (h : t.Gains added t') (h' : t'.Gains added' t'') :
    t.Gains (added ++ added') t'' where
  wellFormed := h'.wellFormed
  parts := by rw [h'.parts, h.parts, List.append_assoc]

theorem addStatic (h : t.WellFormed) (data : Bytes) :
    t.Gains (Part.bytes data) (t.addStatic data) := ⟨h.addStatic data, h.parts_addStatic data⟩

theorem addPlaceholder (h : t.WellFormed) {name : String} {wrap : Option ω}
    (ht : t.addPlaceholder name wrap = .ok t') : t.Gains [.hole name wrap] t' :=
  ⟨h.addPlaceholder ht, h.parts_addPlaceholder ht⟩

end Template.Gains

namespace Parsing

variable {m : Markup} {root : String} {line : Nat} {st st' : Parsing ω} {t t' : Template ω}

theorem gains_withPending (st : Parsing ω) (h : t.WellFormed) (keep : Bool) :
    t.Gains (breakParts st.pending keep) (st.withPending keep t) := by
  unfold withPending breakParts
  cases keep with
  | false => exact .refl h
  | true => exact .addStatic h _

theorem gains_addText (h : t.WellFormed) (text : List Char) :
    t.Gains (Part.bytes (Utf8.encode text)) (addText t text) := by
  unfold addText
  split
  · next hnil =>
    rw [List.isEmpty_iff.1 hnil]
    exact .refl h
  · exact .addStatic h _

/-- A text and the placeholder behind it are added, unless the name is empty. -/
theorem gains_addMarked (h : t.WellFormed) (text name : List Char) :
    t.Gains (Part.bytes (Utf8.encode text) ++
      if name.isEmpty then [] else [.hole (String.ofList name) none])
      (addMarked t (text, name)) := by
  have htext := gains_addText h text
  refine htext.trans ?_
  unfold addMarked
  cases hadd : (addText t text).addPlaceholder (String.ofList name) none with
  | ok t' =>
    have hname : name ≠ [] := by
      rintro rfl
      cases hadd
    rw [if_neg (by simpa using hname)]
    exact .addPlaceholder htext.wellFormed hadd
  | error f =>
    -- only an empty name is refused
    have hname : name = [] := by
      unfold Template.addPlaceholder at hadd
      split at hadd
      · next hempty => simpa using hempty
      · cases hadd
    subst hname
    exact .refl htext.wellFormed

theorem gains_foldl_addMarked (marked : List (List Char × List Char)) :
    ∀ {t : Template ω}, t.WellFormed →
      t.Gains (marked.flatMap fun (text, name) => Part.bytes (Utf8.encode text) ++
        if name.isEmpty then [] else [.hole (String.ofList name) none])
        (marked.foldl addMarked t) := by
  induction marked with
  | nil => exact fun h => .refl h
  | cons piece rest ih =>
    intro t h
    obtain ⟨text, name⟩ := piece
    have hpiece := gains_addMarked h text name
    exact hpiece.trans (ih hpiece.wellFormed)

theorem gains_addScan (h : t.WellFormed) (scan : InlineScan) :
    t.Gains scan.parts (addScan t scan) := by
  have hall := gains_foldl_addMarked scan.marked h
  exact hall.trans (gains_addText hall.wellFormed scan.tail)

/-! ### States and scenes -/

/-- All templates are in the catalogue, where they have the parts of the view. -/
structure Stored (st : Parsing ω) (view : PartsByKey ω) : Prop where
  /-- All templates are well-formed. -/
  all : st.All Template.WellFormed
  /-- No key was taken. -/
  unique : st.duplicates = []
  /-- The catalogue has the parts. -/
  view : ∀ k, view k = (st.catalog.get? k).map Template.parts

/-- A state shows a scene: all templates but the open one are in the catalogue. -/
structure Shows (m : Markup) (st : Parsing ω) (sc : Scene ω) : Prop where
  /-- All templates are well-formed. -/
  all : st.All Template.WellFormed
  /-- No key was taken. -/
  unique : st.duplicates = []
  /-- The same path is open. -/
  path : st.path = sc.path
  /-- The same break is pending. -/
  pending : st.pending = sc.pending
  /-- The open key is free, unless the open template is stored. -/
  free : st.current ≠ .stored → st.catalog.get? (st.key m) = none
  /-- The open template, or that of the catalogue, has the parts. -/
  view : ∀ k, sc.view k = (if k = st.key m then st.currentTemplate? m
    else st.catalog.get? k).map Template.parts

theorem shows_start (m : Markup) : (Parsing.start [] : Parsing ω).Shows m .start where
  all := ⟨nofun, nofun, nofun⟩
  unique := rfl
  path := rfl
  pending := rfl
  free _ := rfl
  view k := by split <;> rfl

theorem Shows.stored {sc : Scene ω} (h : st.Shows m sc) : (st.store m).Stored sc.view := by
  refine ⟨h.all.store, ?_, fun k => ?_⟩
  · unfold store
    split
    -- the open key is free, so the template is no duplicate
    · next t ht =>
      have hfree := h.free (by rw [ht]; exact nofun)
      rw [hfree]
      exact h.unique
    · exact h.unique
  · rw [h.view]
    unfold store currentTemplate?
    cases hc : st.current with
    | absent =>
      have hfree := h.free (by rw [hc]; exact nofun)
      dsimp only
      split
      · next hk => rw [hk, hfree]
      · rfl
    | stored =>
      dsimp only
      split
      · next hk => rw [hk]
      · rfl
    | detached t =>
      have hfree := h.free (by rw [hc]; exact nofun)
      dsimp only
      rw [hfree]
      dsimp only [Option.isSome]
      split
      · next hk =>
        rw [hk]
        exact congrArg _ (Catalog.get?_put_self _ _ _).symm
      · next hk => exact congrArg _ (Catalog.get?_put_of_ne _ _ hk).symm

/-- When all is stored, any path can be entered. -/
theorem Stored.enter {view : PartsByKey ω} (h : st.Stored view) (path : List String)
    (pending : String) : (st.enter m path pending).Shows m ⟨path, pending, view⟩ where
  all := h.all.enter path pending
  unique := h.unique
  path := rfl
  pending := rfl
  free hc := by
    unfold Parsing.enter at hc
    cases hget : st.catalog.get? (keyOf m.pathSep path) with
    | none => exact hget
    | some t =>
      rw [hget] at hc
      exact absurd rfl hc
  view k := by
    refine (h.view k).trans ?_
    unfold Parsing.enter currentTemplate? key
    dsimp only
    split
    · next hk =>
      rw [hk]
      cases hget : st.catalog.get? (keyOf m.pathSep path) with
      | none => rfl
      | some t => rfl
    · rfl

variable {sc : Scene ω}

/-- The open template has the parts that the scene has under its key; one just made has none. -/
theorem Shows.need (h : st.Shows m sc) (ht : st.need m root line = .ok t) :
    t.WellFormed ∧ t.parts = (sc.view (keyOf m.pathSep sc.path)).getD [] := by
  refine ⟨h.all.need building_wellFormed.bare ht, ?_⟩
  have hkey : keyOf m.pathSep sc.path = st.key m := by rw [key, h.path]
  rw [hkey, h.view, if_pos rfl]
  unfold Parsing.need at ht
  split at ht
  · next hnone =>
    cases ht
    rw [hnone]
    rfl
  · next t' hsome =>
    dsimp only at ht
    split at ht
    · cases ht
      rw [hsome]
      rfl
    · cases ht

section SetCurrent

variable (m : Markup) (st : Parsing ω) (t : Template ω)

theorem path_setCurrent : (st.setCurrent m t).path = st.path := by
  unfold setCurrent
  split <;> rfl

theorem pending_setCurrent : (st.setCurrent m t).pending = st.pending := by
  unfold setCurrent
  split <;> rfl

theorem duplicates_setCurrent : (st.setCurrent m t).duplicates = st.duplicates := by
  unfold setCurrent
  split <;> rfl

theorem key_setCurrent : (st.setCurrent m t).key m = st.key m := by
  rw [key, path_setCurrent, key]

theorem currentTemplate?_setCurrent : (st.setCurrent m t).currentTemplate? m = some t := by
  unfold setCurrent
  split
  · next hc =>
    simp only [currentTemplate?, hc]
    exact Catalog.get?_put_self _ _ _
  · rfl

theorem get?_setCurrent_of_ne {k : String} (hk : k ≠ st.key m) :
    (st.setCurrent m t).catalog.get? k = st.catalog.get? k := by
  unfold setCurrent
  split
  · exact Catalog.get?_put_of_ne _ _ hk
  · rfl

/-- A template that is not stored leaves the catalogue as it was. -/
theorem catalog_setCurrent (hc : (st.setCurrent m t).current ≠ .stored) :
    st.current ≠ .stored ∧ (st.setCurrent m t).catalog = st.catalog := by
  unfold setCurrent at hc ⊢
  split
  · next hs =>
    simp only [hs] at hc
    exact absurd rfl hc
  · next hs => exact ⟨hs, rfl⟩

end SetCurrent

/-- The open template replaced by one with more parts. -/
theorem Shows.setCurrent (h : st.Shows m sc) (ht : st.need m root line = .ok t)
    {added : List (Part ω)} (hgains : t.Gains added t') :
    (st.setCurrent m t').Shows m (sc.add m added) where
  all := h.all.setCurrent hgains.wellFormed
  unique := (duplicates_setCurrent m st t').trans h.unique
  path := (path_setCurrent m st t').trans h.path
  pending := (pending_setCurrent m st t').trans h.pending
  free hc := by
    obtain ⟨hc, hcatalog⟩ := catalog_setCurrent m st t' hc
    rw [key_setCurrent, hcatalog]
    exact h.free hc
  view k := by
    have hkey : keyOf m.pathSep sc.path = st.key m := by rw [key, h.path]
    have hneed := (h.need ht).2
    simp only [Scene.add, PartsByKey.add]
    rw [key_setCurrent, currentTemplate?_setCurrent, ← hneed, ← hgains.parts, hkey]
    split
    · rfl
    · next hk => rw [get?_setCurrent_of_ne m st t' hk, h.view, if_neg hk]

theorem Shows.withPending (h : st.Shows m sc) (pending : String) :
    ({ st with pending } : Parsing ω).Shows m { sc with pending } :=
  ⟨⟨h.all.catalog, h.all.duplicates, h.all.current⟩, h.unique, h.path, rfl, h.free, h.view⟩

/-! ### Steps -/

theorem Shows.openTemplate {view : PartsByKey ω} (h : st.Stored view) (hpath : st.path = sc.path)
    {name : Except Fault (Option String)} (hs : st.openTemplate m line name = (st', none)) :
    ∃ n, name = .ok (some n) ∧ st'.Shows m ⟨sc.path ++ [n], "", view⟩ := by
  unfold Parsing.openTemplate at hs
  split at hs
  · cases hs
  · cases hs
  · next n =>
    split at hs
    · cases hs
    · cases hs
      refine ⟨n, rfl, ?_⟩
      rw [hpath]
      exact h.enter _ _

theorem path_store (m : Markup) (st : Parsing ω) : (st.store m).path = st.path := by
  unfold store
  split
  · split <;> rfl
  · rfl

theorem Shows.stepStart (h : st.Shows m sc) {lead : Except Fault Bool}
    {name : Except Fault (Option String)}
    (hs : st.stepStart m root line lead name = (st', none)) :
    ∃ sc', sc.next m (.start lead name) = some sc' ∧ st'.Shows m sc' := by
  unfold Parsing.stepStart at hs
  split at hs
  · cases hs
  -- the break before the region is dropped
  · obtain ⟨n, rfl, hshows⟩ := Shows.openTemplate h.stored ((path_store m st).trans h.path) hs
    exact ⟨_, rfl, hshows⟩
  · split at hs
    · cases hs
    -- the break goes to the template around the region before that is stored
    · next t ht =>
      have hgains := gains_withPending st (h.need ht).1 true
      rw [h.pending] at hgains
      have hset := h.setCurrent ht hgains
      obtain ⟨n, rfl, hshows⟩ := Shows.openTemplate hset.stored
        ((path_store m _).trans hset.path) hs
      exact ⟨_, rfl, hshows⟩

theorem Shows.stepFinish (h : st.Shows m sc) {name : Except Fault (Option String)}
    {trail : Except Fault Bool} (hs : st.stepFinish m line name trail = (st', none)) :
    ∃ sc', sc.next m (.finish name trail) = some sc' ∧ st'.Shows m sc' := by
  unfold Parsing.stepFinish at hs
  split at hs
  · cases hs
  · next name =>
    split at hs
    · cases hs
    · next hname =>
      dsimp only at hs
      split at hs
      · cases hs
      · next keep =>
        cases hs
        rw [h.path] at hname
        -- the name is that of the innermost open template
        cases hlast : sc.path.getLast? with
        | none => simp [hlast] at hname
        | some last =>
          have heq : some last = name := by simpa [hlast] using hname
          subst heq
          refine ⟨_, by rw [Scene.next, if_pos hlast], ?_⟩
          rw [path_store, h.path]
          exact h.stored.enter _ _

theorem Shows.stepBlock (h : st.Shows m sc) {lead trail : Except Fault Bool}
    {name : Except Fault (Option String)}
    (hs : st.stepBlock m root line lead name trail = (st', none)) :
    ∃ sc', sc.next m (.block lead name trail) = some sc' ∧ st'.Shows m sc' := by
  unfold Parsing.stepBlock at hs
  split at hs
  · cases hs
  · next t ht =>
    split at hs
    · cases hs
    · next keep =>
      have hpending := gains_withPending st (h.need ht).1 keep
      rw [h.pending] at hpending
      unfold Parsing.addBlock at hs
      split at hs
      · cases hs
      · next name =>
        split at hs
        · cases hs
        · next t' ht' =>
          split at hs
          · cases hs
          · next keepTrail =>
            cases hs
            -- a placeholder was added, so there is a name
            cases name with
            | none => cases ht'
            | some name =>
              have hgains := hpending.trans (.addPlaceholder hpending.wellFormed ht')
              exact ⟨_, rfl, (h.setCurrent ht hgains).withPending _⟩

theorem Shows.stepPlain (h : st.Shows m sc) {text : String}
    (hs : st.stepPlain m root line text = (st', none)) :
    ∃ sc', sc.next m (.plain text) = some sc' ∧ st'.Shows m sc' := by
  unfold Parsing.stepPlain at hs
  split at hs
  · cases hs
  · next t ht =>
    have hpending := gains_withPending st (h.need ht).1 true
    rw [h.pending] at hpending
    have hgains := hpending.trans (gains_addScan hpending.wellFormed (m.scan text))
    dsimp only at hs
    split at hs
    · cases hs
    · cases hs
      exact ⟨_, rfl, (h.setCurrent ht hgains).withPending _⟩

/-- **A step that does not fail follows the scene.** -/
theorem Shows.step (h : st.Shows m sc) {what : Markup.Line}
    (hs : st.step m root line what = (st', none)) :
    ∃ sc', sc.next m what = some sc' ∧ st'.Shows m sc' := by
  cases what with
  | start lead name => exact h.stepStart hs
  | finish name trail => exact h.stepFinish hs
  | block lead name trail => exact h.stepBlock hs
  | plain text => exact h.stepPlain hs

/-- Lines that do not fail follow the scenes. -/
theorem Shows.run (lines : List String) : ∀ {st st' : Parsing ω} {sc : Scene ω} {line : Nat},
    st.Shows m sc → Parsing.run m root line lines st = (st', none) →
    ∃ sc', sc.run m (lines.map m.classify) = some sc' ∧ st'.Shows m sc' := by
  induction lines with
  | nil =>
    intro st st' sc line h hs
    cases hs
    exact ⟨sc, rfl, h⟩
  | cons text rest ih =>
    intro st st' sc line h hs
    unfold Parsing.run at hs
    split at hs
    · next st₁ hstep =>
      obtain ⟨sc₁, hnext, hshows⟩ := h.step hstep
      obtain ⟨sc', hrun, hshows'⟩ := ih hshows hs
      refine ⟨sc', ?_, hshows'⟩
      rw [List.map_cons, Scene.run, hnext]
      exact hrun
    · cases hs

/-- At the end of a source without an error, no path is open and all templates are stored. -/
theorem Shows.close (h : st.Shows m sc) (hs : (st.close m).2 = none) :
    sc.path = [] ∧ (st.close m).1.Stored sc.view := by
  have hstored := h.stored
  unfold Parsing.close at hs ⊢
  split at hs
  · cases hs
  · next hpath =>
    rw [if_neg hpath]
    dsimp only
    rw [hstored.unique]
    refine ⟨?_, hstored⟩
    rw [← h.path]
    simpa using hpath

end Parsing

/-- **What a whole source is parsed into.**  If a source is parsed without an error into an empty
catalogue, the scenes end with no path open, and the catalogue has the parts of the last scene. -/
theorem Catalog.parse_follows {m : Markup} {root : String} {source : Lines} {c : Catalog ω}
    (h : Catalog.parse [] m root source = (c, none)) :
    ∃ sc : Scene ω, Scene.start.run m (source.lines.map m.classify) = some sc ∧ sc.path = [] ∧
      c.All Template.WellFormed ∧ ∀ k, sc.view k = (c.get? k).map Template.parts := by
  unfold Catalog.parse at h
  split at h
  · cases h
  · next st hrun =>
    split at h
    · cases h
    · obtain ⟨sc, hscene, hshows⟩ := Parsing.Shows.run source.lines (Parsing.shows_start m) hrun
      obtain ⟨hpath, hstored⟩ := hshows.close (congrArg Prod.snd h)
      have hc : (st.close m).1.catalog = c := congrArg Prod.fst h
      rw [← hc]
      exact ⟨sc, hscene, hpath, hstored.all.catalog, hstored.view⟩

end Stencil
