import Stencil.Proofs.Source.Nested
import Stencil.Proofs.Source.Outermost

/-!
# Continued sources

A source may be parsed in two goes: its first lines, and then the others into the catalogue that
these gave.  That is the same as one parse if no line of the second go adds to the outermost
template.  For then it begins with the start of a sub-template, before which no break is kept, so it
does not matter what was open and which break was pending before.

## Main definitions

* `EditLog.editsTo` — the edits that a log makes to the template with a key.

## Main results

* `Catalog.parse_induction` — what storing a template keeps, a parse keeps.
* `Catalog.parse_onto` — a second go edits the templates that are there.
* `Catalog.parse_append` — so does the second part of a source that is parsed in one go.
* `Markup.editsTo_of_not_contributes` — only templates that lines open are edited.
-/

namespace Stencil

variable {ω : Type}

/-! ### What a parse stores -/

section Induction

variable {P : Catalog ω → Prop} {m : Markup} {root : String} {st : Parsing ω} {t : Template ω}

namespace Parsing

theorem setCurrent_induction (hput : ∀ c key t, P c → P (Catalog.put c key t))
    (h : P st.catalog) (t : Template ω) : P (st.setCurrent m t).catalog := by
  unfold setCurrent
  split
  · exact hput _ _ _ h
  · exact h

theorem store_induction (hput : ∀ c key t, P c → P (Catalog.put c key t)) (h : P st.catalog) :
    P (st.store m).catalog := by
  unfold store
  split
  · split
    · exact h
    · exact hput _ _ _ h
  · exact h

theorem openTemplate_induction (h : P st.catalog) (line : Nat)
    (name : Except Fault (Option String)) : P (st.openTemplate m line name).1.catalog := by
  unfold openTemplate
  split
  · exact h
  · exact h
  · split <;> exact h

/-- What storing a template keeps, a line keeps. -/
theorem step_induction (hput : ∀ c key t, P c → P (Catalog.put c key t)) (h : P st.catalog)
    (line : Nat) (what : Markup.Line) : P (st.step m root line what).1.catalog := by
  cases what with
  | start lead name =>
    simp only [step, stepStart]
    split
    · exact h
    · exact openTemplate_induction (store_induction hput h) line name
    · split
      · exact h
      · exact openTemplate_induction
          (store_induction hput (setCurrent_induction hput h _)) line name
  | finish name trail =>
    simp only [step, stepFinish]
    split
    · exact h
    · split
      · exact h
      · split <;> exact store_induction hput h
  | block lead name trail =>
    simp only [step, stepBlock]
    split
    · exact h
    · split
      · exact setCurrent_induction hput h _
      · unfold addBlock
        split
        · exact setCurrent_induction hput h _
        · split
          · exact setCurrent_induction hput h _
          · split <;> exact setCurrent_induction hput h _
  | plain text =>
    simp only [step, stepPlain]
    split
    · exact h
    · split <;> exact setCurrent_induction hput h _

theorem run_induction (hput : ∀ c key t, P c → P (Catalog.put c key t)) (lines : List String) :
    ∀ {st : Parsing ω} (line : Nat), P st.catalog → P (run m root line lines st).1.catalog := by
  induction lines with
  | nil => exact fun _ h => h
  | cons text lines ih =>
    intro st line h
    have hstep : P (st.step m root line (m.classify text)).1.catalog :=
      step_induction hput h line _
    unfold run
    split
    · next heq =>
      rw [heq] at hstep
      exact ih (line + 1) hstep
    · next heq =>
      rw [heq] at hstep
      exact hstep

theorem close_induction (hput : ∀ c key t, P c → P (Catalog.put c key t)) (h : P st.catalog) :
    P (st.close m).1.catalog := by
  unfold close
  split
  · exact h
  · dsimp only
    split <;> exact store_induction hput h

end Parsing

/-- **What storing a template keeps, a parse keeps.** -/
theorem Catalog.parse_induction (hput : ∀ c key t, P c → P (Catalog.put c key t)) {c : Catalog ω}
    (h : P c) (m : Markup) (root : String) (source : Lines) : P (c.parse m root source).1 := by
  have hrun : P (Parsing.run m root 1 source.lines (.start c)).1.catalog :=
    Parsing.run_induction hput source.lines 1 h
  unfold parse
  generalize Parsing.run m root 1 source.lines (.start c) = r at hrun
  obtain ⟨st, e⟩ := r
  cases e with
  | some e => exact hrun
  | none =>
    cases source.fault with
    | some f => exact hrun
    | none => exact Parsing.close_induction hput hrun

end Induction

namespace Catalog

theorem mem_keys_put {c : Catalog ω} {key k : String} {t : Template ω}
    (h : k ∈ (c.put key t).map (·.1)) : k = key ∨ k ∈ c.map (·.1) := by
  obtain ⟨e, he, rfl⟩ := List.mem_map.1 h
  rcases mem_put he with rfl | he
  · exact .inl rfl
  · exact .inr (List.mem_map_of_mem he)

/-- A template is stored under a key only once. -/
theorem nodup_put {c : Catalog ω} (h : (c.map (·.1)).Nodup) (key : String) (t : Template ω) :
    ((c.put key t).map (·.1)).Nodup := by
  induction c with
  | nil => simp [put]
  | cons e c ih =>
    obtain ⟨k, old⟩ := e
    rw [List.map_cons, List.nodup_cons] at h
    unfold put
    split
    · next hk =>
      rw [List.map_cons, List.nodup_cons]
      exact h
    · next hk =>
      rw [List.map_cons, List.nodup_cons]
      refine ⟨fun hmem => ?_, ih h.2⟩
      rcases mem_keys_put hmem with hsame | hmem
      · exact hk hsame
      · exact h.1 hmem

/-- The keys of a catalogue stay apart in a parse. -/
theorem nodup_parse {c : Catalog ω} (h : (c.map (·.1)).Nodup) (m : Markup) (root : String)
    (source : Lines) : ((c.parse m root source).1.map (·.1)).Nodup :=
  parse_induction (P := fun c => (c.map (·.1)).Nodup) (fun _ key t h => nodup_put h key t) h m root
    source

end Catalog

/-! ### Edits to one template -/

/-- The edits that a log makes to the template with a key. -/
def EditLog.editsTo (sep key : String) (log : EditLog ω) : List (Edit ω) :=
  log.flatMap fun e => if Parsing.keyOf sep e.1 = key then e.2 else []

namespace Shelf

variable {sep root key : String} {shelf : Shelf ω} {t : Template ω}

theorem Named.replay (log : EditLog ω) : ∀ {shelf : Shelf ω}, shelf.Named sep root →
    (shelf.replay sep root log).Named sep root := by
  induction log with
  | nil => exact fun h => h
  | cons e log ih => exact fun h => ih (h.edit _ e.2)

/-- A template that is there is continued by the edits that are made to it. -/
theorem replay_of_some (log : EditLog ω) : ∀ {shelf : Shelf ω} {t : Template ω},
    shelf key = some t → shelf.replay sep root log key = some (t.edits (log.editsTo sep key)) := by
  induction log with
  | nil => exact fun h => h
  | cons e log ih =>
    intro shelf t h
    rw [replay, List.foldl_cons, ← replay, EditLog.editsTo, List.flatMap_cons, ← EditLog.editsTo]
    by_cases hkey : Parsing.keyOf sep e.1 = key
    · subst hkey
      rw [if_pos rfl, Template.edits_append]
      refine ih ?_
      rw [edit_self, h, Option.getD_some]
    · rw [if_neg hkey, List.nil_append]
      exact ih ((edit_of_ne (Ne.symm hkey) shelf e.2).trans h)

end Shelf

/-! ### Lines that add nothing to the outermost template -/

namespace Markup

variable {m : Markup} {whats : List Markup.Line}

theorem Line.edits?_of_not_adds {what : Markup.Line} (h : what.adds = false) (pending : String) :
    (what.edits? m pending : Option (List (Edit ω))) = none := by
  unfold Line.adds at h
  split at h
  · cases h
  · cases h
  · cases h
  · next hstart hblock hplain =>
    unfold Line.edits?
    split
    · exact absurd rfl (hstart _)
    · exact absurd rfl (hblock _ _ _)
    · exact absurd rfl (hplain _)
    · rfl

theorem adds_eq_false (h : ¬ Contributes whats) {before after : List Markup.Line}
    {what : Markup.Line} (hwhats : whats = before ++ what :: after)
    (hopen : openPath [] before = []) : what.adds = false := by
  rw [← Bool.not_eq_true]
  exact fun hadds => h ⟨before, what, after, hwhats, hopen, hadds⟩

/-- Such lines do not use a break that is pending before. -/
theorem editLog_of_not_contributes (h : ¬ Contributes whats) (pending : String) :
    (m.editLog [] pending whats : EditLog ω) = m.editLog [] "" whats := by
  cases whats with
  | nil => rfl
  | cons what rest =>
    have hadds : what.adds = false := adds_eq_false h (List.nil_append _).symm rfl
    rw [editLog_cons, editLog_cons, Line.edits?_of_not_adds hadds, Line.edits?_of_not_adds hadds]

/-- Where no sub-template is open one is started by such a line, if the line does not fail. -/
theorem exists_start {what : Markup.Line} {number : Nat} (h : what.adds = false)
    (hnone : (what.failure? m [] number : Option (Failure ω)) = none) :
    ∃ name, what = .start (.ok false) (.ok (some name)) := by
  cases what with
  | start lead name =>
    rcases lead with f | (_ | _)
    · cases hnone
    · rcases name with f | (_ | name)
      · cases hnone
      · cases hnone
      · exact ⟨name, rfl⟩
    · cases h
  | finish name trail => cases name <;> cases hnone
  | block lead name trail => cases h
  | plain text => cases h

/-- Every edit is made by a line to the template that is open there. -/
theorem mem_editLog {e : List String × List (Edit ω)} : ∀ {path : List String} {pending : String},
    e ∈ m.editLog path pending whats → ∃ before what after pending',
      whats = before ++ what :: after ∧ e.1 = openPath path before ∧
        what.edits? m pending' = some e.2 := by
  induction whats with
  | nil => exact nofun
  | cons what rest ih =>
    intro path pending he
    rw [editLog_cons, List.mem_append, List.mem_map] at he
    rcases he with ⟨es, hes, rfl⟩ | he
    · exact ⟨[], what, rest, pending, rfl, rfl, Option.mem_toList.1 hes⟩
    · obtain ⟨before, what', after, pending', rfl, hpath, hes⟩ := ih he
      exact ⟨what :: before, what', after, pending', rfl, hpath, hes⟩

/-- A sub-template that is open was opened. -/
theorem opened_openPath (m : Markup) (hne : openPath [] whats ≠ []) :
    Opened [] whats (openPath [] whats) := by
  -- this holds of all paths around it, too
  let Holds (q : List String) : Prop := ∀ p, p <+: q → p ≠ [] → Opened [] whats p
  have hdrop : ∀ q, Holds q → Holds q.dropLast :=
    fun q hq p hp => hq p (hp.trans (List.dropLast_prefix q))
  have hnil : Holds [] := fun p hp hne => absurd (List.prefix_nil.1 hp) hne
  have hopened : ∀ q n, Holds q → Opened [] whats (q ++ [n]) → Holds (q ++ [n]) := by
    intro q n hq hqn p hp hne
    rcases List.prefix_concat_iff.1 hp with rfl | hp
    · exact hqn
    · exact hq p hp hne
  exact (editLog_paths (ω := Empty) (m := m) hdrop "" hnil hopened).2 _ List.prefix_rfl hne

theorem Opened.append {path q : List String} (h : Opened path whats q) (rest : List Markup.Line) :
    Opened path (whats ++ rest) q := by
  obtain ⟨before, lead, name, after, rfl, hq⟩ := h
  exact ⟨before, lead, name, after ++ rest, by simp, hq⟩

/-- Lines that add nothing to the outermost template edit the templates that they open, and no
others. -/
theorem editsTo_of_not_contributes (h : ¬ Contributes whats) {key : String}
    (hkey : ∀ q, Opened [] whats q → Parsing.keyOf m.pathSep q ≠ key) (pending : String) :
    (m.editLog [] pending whats : EditLog ω).editsTo m.pathSep key = [] := by
  refine List.flatMap_eq_nil_iff.2 fun e he => ?_
  obtain ⟨before, what, after, pending', hwhats, hpath, hes⟩ := mem_editLog he
  have hne : openPath [] before ≠ [] := by
    intro hopen
    rw [Line.edits?_of_not_adds (adds_eq_false h hwhats hopen)] at hes
    cases hes
  have hopened : Opened [] whats e.1 := by
    rw [hwhats, hpath]
    exact (opened_openPath m hne).append _
  exact if_neg (hkey e.1 hopened)

end Markup

/-! ### Parses -/

namespace Catalog

variable {m : Markup} {root : String}

/-- **A second go edits the templates that are there.**  Lines that add nothing to the
outermost template, and can be parsed by themselves, can be parsed into any catalogue in which the
templates have the right names. -/
theorem parse_onto {c : Catalog ω} (hnamed : Shelf.Named m.pathSep root c.get?)
    {lines : List String} (halone : (parse ([] : Catalog ω) m root ⟨lines, none⟩).2 = none)
    (hnested : ¬ Markup.Contributes (lines.map m.classify)) :
    (c.parse m root ⟨lines, none⟩).2 = none ∧ (c.parse m root ⟨lines, none⟩).1.get? =
      Shelf.replay m.pathSep root c.get? (m.editLog [] "" (lines.map m.classify)) := by
  obtain ⟨hnone, hopen⟩ := parse_nil_eq_none_iff.1 halone
  cases lines with
  | nil => exact ⟨rfl, rfl⟩
  | cons text rest =>
    rw [List.map_cons] at hnone hopen hnested ⊢
    rw [Markup.firstFailure?_cons, Option.or_eq_none_iff] at hnone
    obtain ⟨hfirst, hrest⟩ := hnone
    obtain ⟨name, hname⟩ := Markup.exists_start
      (Markup.adds_eq_false hnested (List.nil_append _).symm rfl) hfirst
    rw [hname] at hfirst hrest hopen
    have hvalid : ¬Text.occurs m.pathSep.toList name.toList = true := by
      intro hoccurs
      rw [Markup.Line.failure?, if_pos hoccurs] at hfirst
      cases hfirst
    have hstart : Shelf.Named m.pathSep root (Parsing.start c).catalog.get? := hnamed
    obtain ⟨hsteady, hshelf⟩ := Parsing.steady_enter hstart [name] ""
    have hstep : (Parsing.start c).step m root 1 (m.classify text) =
        ((Parsing.start c).enter m [name] "", none) := by
      rw [hname]
      exact if_neg hvalid
    obtain ⟨hrun, hend⟩ := hsteady.run rest 2
    obtain ⟨hsteady', hpath, hshelf', hduplicates⟩ := hend hrest
    obtain ⟨hclose, hstored⟩ := hsteady'.close hduplicates
    have hpath' := hpath.trans hopen
    have hrun' : Parsing.run m root 1 (text :: rest) (.start c) =
        ((Parsing.run m root 2 rest ((Parsing.start c).enter m [name] "")).1, none) := by
      rw [Parsing.run, hstep]
      exact Prod.ext rfl (hrun.trans hrest)
    rw [parse, hrun', hname]
    dsimp only
    rw [if_pos hpath'] at hclose
    refine ⟨hclose, (hstored hpath').trans (hshelf'.trans ?_)⟩
    rw [hshelf]
    rfl

/-- **So does the second part of a source**: what its first part makes is edited in the same way. -/
theorem parse_append {first lines : List String}
    (hfirst : (parse ([] : Catalog ω) m root ⟨first, none⟩).2 = none)
    (halone : (parse ([] : Catalog ω) m root ⟨lines, none⟩).2 = none)
    (hnested : ¬ Markup.Contributes (lines.map m.classify)) :
    (parse ([] : Catalog ω) m root ⟨first ++ lines, none⟩).2 = none ∧
      (parse ([] : Catalog ω) m root ⟨first ++ lines, none⟩).1.get? =
        Shelf.replay m.pathSep root (parse ([] : Catalog ω) m root ⟨first, none⟩).1.get?
          (m.editLog [] "" (lines.map m.classify)) := by
  obtain ⟨hnone, hopen⟩ := parse_nil_eq_none_iff.1 hfirst
  obtain ⟨hnone', hopen'⟩ := parse_nil_eq_none_iff.1 halone
  obtain ⟨hlater, -, -⟩ := Markup.editLog_below hnone' [] (1 + (first.map m.classify).length) ""
  have hwhole : (parse ([] : Catalog ω) m root ⟨first ++ lines, none⟩).2 = none := by
    refine parse_nil_eq_none_iff.2 ⟨?_, ?_⟩
    · rw [List.map_append, Markup.firstFailure?_append, hnone, Option.none_or, hopen]
      exact hlater
    · rw [List.map_append, Markup.openPath_append, hopen, hopen']
  refine ⟨hwhole, ?_⟩
  rw [(parse_course ⟨first ++ lines, none⟩ rfl Shelf.named_nil).2 hwhole,
    (parse_course ⟨first, none⟩ rfl Shelf.named_nil).2 hfirst, List.map_append,
    Markup.editLog_append, hopen, Markup.editLog_of_not_contributes hnested, Shelf.replay_append]

/-- The templates that a source makes have the names that their keys ask for. -/
theorem named_parse {lines : List String}
    (h : (parse ([] : Catalog ω) m root ⟨lines, none⟩).2 = none) :
    Shelf.Named m.pathSep root (parse ([] : Catalog ω) m root ⟨lines, none⟩).1.get? := by
  rw [(parse_course ⟨lines, none⟩ rfl Shelf.named_nil).2 h]
  exact Shelf.named_nil.replay _

end Catalog

end Stencil
