import Stencil.Proofs.Source.Layout

/-!
# Scenes

Of the state of a parse only three things matter for what it makes of a source: the open path, the
break that is pending, and the parts of the templates by their keys.  Where these templates are kept
while they are open does not matter.  Scenes are the states of a smaller machine that has just
these, with no templates to store and no errors to tell.

## Main definitions

* `PartsByKey`, `Scene` — parts by key, and the smaller state.
* `Scene.next`, `Scene.run` — what lines do to a scene.

## Main results

* `Scene.run_linesOf` — the run of a body adds what its log tells of.
* `Scene.exists_body` — a run that closes all paths reads the lines of a body.
-/

namespace Stencil

variable {ω : Type}

/-- The parts of templates, by their keys. -/
abbrev PartsByKey (ω : Type) := String → Option (List (Part ω))

namespace PartsByKey

/-- The view with parts added under a key. -/
def add (view : PartsByKey ω) (key : String) (parts : List (Part ω)) : PartsByKey ω :=
  fun k => if k = key then some ((view key).getD [] ++ parts) else view k

/-- The view with all parts added that a log tells of; its paths begin at `path`. -/
def record (view : PartsByKey ω) (sep : String) (path : List String) (log : Log ω) :
    PartsByKey ω :=
  log.foldl (fun view e => view.add (Parsing.keyOf sep (path ++ e.1)) e.2) view

theorem record_append (view : PartsByKey ω) (sep : String) (path : List String)
    (log log' : Log ω) :
    view.record sep path (log ++ log') = (view.record sep path log).record sep path log' :=
  List.foldl_append

theorem record_below (view : PartsByKey ω) (sep : String) (path : List String) (name : String)
    (log : Log ω) :
    view.record sep path (log.below name) = view.record sep (path ++ [name]) log := by
  unfold record Log.below
  rw [List.foldl_map]
  simp only [List.append_assoc, List.singleton_append]

/-- What a log tells of under a key. -/
def told (sep : String) (log : Log ω) (key : String) : List (List (Part ω)) :=
  log.filterMap fun (p, parts) => if Parsing.keyOf sep p = key then some parts else none

/-- After a log, a key has what was there and what the log tells of. -/
theorem record_apply (sep : String) (key : String) (log : Log ω) : ∀ view : PartsByKey ω,
    view.record sep [] log key =
      if told sep log key = [] then view key
      else some ((view key).getD [] ++ (told sep log key).flatten) := by
  induction log with
  | nil => exact fun view => rfl
  | cons e log ih =>
    intro view
    obtain ⟨p, parts⟩ := e
    have hstep : view.record sep [] ((p, parts) :: log) =
      (view.add (Parsing.keyOf sep p) parts).record sep [] log := rfl
    rw [hstep, ih, add]
    by_cases hk : Parsing.keyOf sep p = key
    · have htold : told sep ((p, parts) :: log) key = parts :: told sep log key := by
        simp [told, hk]
      rw [htold, if_pos hk.symm, hk, if_neg (List.cons_ne_nil _ _)]
      split
      · next hnil => simp [hnil]
      · simp
    · have htold : told sep ((p, parts) :: log) key = told sep log key := by simp [told, hk]
      rw [htold, if_neg (Ne.symm hk)]

end PartsByKey

/-- What matters of the state between two lines. -/
structure Scene (ω : Type) where
  /-- The names of the open sub-templates, the outermost first. -/
  path : List String
  /-- The break that is pending. -/
  pending : String
  /-- What there is under each key. -/
  view : PartsByKey ω

namespace Scene

/-- The scene before the first line. -/
def start : Scene ω := ⟨[], "", fun _ => none⟩

/-- The scene with parts added to the open template. -/
def add (m : Markup) (sc : Scene ω) (parts : List (Part ω)) : Scene ω :=
  { sc with view := sc.view.add (Parsing.keyOf m.pathSep sc.path) parts }

/-- What a line does; nothing if it cannot be read or does not fit. -/
def next (m : Markup) (sc : Scene ω) : Markup.Line → Option (Scene ω)
  | .plain text =>
    some { sc.add m (breakParts sc.pending true ++ (m.scan text).parts) with pending := m.lineEnd }
  | .block (.ok lead) (.ok (some name)) (.ok trail) =>
    some { sc.add m (breakParts sc.pending lead ++ [.hole name none]) with
      pending := Parsing.breakAfter m trail }
  | .start (.ok lead) (.ok (some name)) =>
    some { (if lead then sc.add m (breakParts sc.pending true) else sc) with
      path := sc.path ++ [name], pending := "" }
  | .finish (.ok (some name)) (.ok trail) =>
    if sc.path.getLast? = some name then
      some { sc with path := sc.path.dropLast, pending := Parsing.breakAfter m trail }
    else none
  | _ => none

/-- What lines do. -/
def run (m : Markup) : List Markup.Line → Scene ω → Option (Scene ω)
  | [], sc => some sc
  | what :: rest, sc => (sc.next m what).bind (run m rest)

theorem run_append (m : Markup) (whats rest : List Markup.Line) : ∀ sc : Scene ω,
    run m (whats ++ rest) sc = (run m whats sc).bind (run m rest) := by
  induction whats with
  | nil => exact fun sc => rfl
  | cons what whats ih =>
    intro sc
    rw [List.cons_append, run, run, Option.bind_assoc]
    congr 1
    exact funext ih

/-! ### Items -/

/-- The scene after a log, and with another break pending. -/
def after (m : Markup) (sc : Scene ω) (log : Log ω) (pending : String) : Scene ω :=
  { sc with view := sc.view.record m.pathSep sc.path log, pending := pending }

theorem run_linesOf_of (m : Markup) (body : List Item)
    (h : ∀ x ∈ body, ∀ sc : Scene ω,
      run m x.lines sc = some (sc.after m (x.log m sc.pending) (Parsing.breakAfter m x.trail))) :
    ∀ sc : Scene ω, ∃ pending,
      run m (Item.linesOf body) sc = some (sc.after m (Item.logOf m sc.pending body) pending) := by
  induction body with
  | nil => exact fun sc => ⟨sc.pending, rfl⟩
  | cons x rest ih =>
    intro sc
    obtain ⟨pending, hrest⟩ := ih (fun y hy => h y (List.mem_cons_of_mem _ hy))
      (sc.after m (x.log m sc.pending) (Parsing.breakAfter m x.trail))
    refine ⟨pending, ?_⟩
    rw [Item.linesOf, run_append, h x List.mem_cons_self, Option.bind_some, hrest, Item.logOf]
    simp only [after, PartsByKey.record_append]

/-- The run of an item adds what its log tells of, and leaves the break behind it pending. -/
theorem run_lines (m : Markup) (x : Item) : ∀ sc : Scene ω,
    run m x.lines sc = some (sc.after m (x.log m sc.pending) (Parsing.breakAfter m x.trail)) := by
  induction x using Item.induct with
  | plain text =>
    intro sc
    simp [Item.lines, run, next, Item.log, after, PartsByKey.record, add, Item.trail,
      Parsing.breakAfter]
  | block lead name trail =>
    intro sc
    simp [Item.lines, run, next, Item.log, after, PartsByKey.record, add, Item.trail]
  | region lead name trail body ih =>
    intro sc
    -- the body is read with the longer path open and no break pending
    obtain ⟨pending, hbody⟩ := run_linesOf_of m body ih
      { (if lead then sc.add m (breakParts sc.pending true) else sc) with
        path := sc.path ++ [name], pending := "" }
    rw [Item.lines, run, next, Option.bind_some, run_append, hbody, Option.bind_some, run, next,
      Item.log]
    simp only [after, List.getLast?_concat, if_true, List.dropLast_concat, PartsByKey.record_append,
      PartsByKey.record_below, Item.trail, run, Option.bind_some]
    cases lead <;> simp [add, PartsByKey.record]

/-- **The run of a body adds what its log tells of.** -/
theorem run_linesOf (m : Markup) (body : List Item) (sc : Scene ω) : ∃ pending,
    run m (Item.linesOf body) sc = some (sc.after m (Item.logOf m sc.pending body) pending) :=
  run_linesOf_of m body (fun x _ => run_lines m x) sc

/-! ### Lines that close all paths -/

/-- The lines close the sub-templates with the given names, the innermost first. -/
def Closes : List String → List Markup.Line → Prop
  | [], whats => ∃ body, whats = Item.linesOf body
  | name :: outer, whats => ∃ body trail rest,
    whats = Item.linesOf body ++ .finish (.ok (some name)) (.ok trail) :: rest ∧ Closes outer rest

theorem Closes.prepend (x : Item) {names : List String} {whats : List Markup.Line}
    (h : Closes names whats) : Closes names (x.lines ++ whats) := by
  cases names with
  | nil =>
    obtain ⟨body, rfl⟩ := h
    exact ⟨x :: body, by rw [Item.linesOf]⟩
  | cons name outer =>
    obtain ⟨body, trail, rest, rfl, hrest⟩ := h
    exact ⟨x :: body, trail, rest, by rw [Item.linesOf, List.append_assoc], hrest⟩

theorem closes_of_run (m : Markup) (whats : List Markup.Line) : ∀ {sc sc' : Scene ω},
    run m whats sc = some sc' → sc'.path = [] → Closes sc.path.reverse whats := by
  -- From the last line to the first: a line is an item in front of a body, or an end line, which
  -- begins an outer body, or a start line, which makes a region of the body up to its end line.
  induction whats with
  | nil =>
    intro sc sc' hrun hpath
    cases hrun
    rw [hpath]
    exact ⟨[], rfl⟩
  | cons what rest ih =>
    intro sc sc' hrun hpath
    obtain ⟨sc₁, hnext, hrest⟩ := Option.bind_eq_some_iff.1 hrun
    have hcloses := ih hrest hpath
    unfold next at hnext
    split at hnext
    · next text =>
      cases hnext
      exact hcloses.prepend (.plain text)
    · next lead name trail =>
      cases hnext
      exact hcloses.prepend (.block lead name trail)
    · next lead name =>
      cases hnext
      rw [List.reverse_concat] at hcloses
      obtain ⟨body, trail, rest', rfl, hrest'⟩ := hcloses
      have hregion := hrest'.prepend (.region lead name trail body)
      rw [Item.lines, List.cons_append, List.append_assoc] at hregion
      exact hregion
    · next name trail =>
      split at hnext
      · next hlast =>
        cases hnext
        have hpath : sc.path = sc.path.dropLast ++ [name] := by
          rw [List.dropLast_append_getLast?]
          exact hlast
        rw [hpath, List.reverse_concat]
        exact ⟨[], trail, rest, rfl, hcloses⟩
      · cases hnext
    · cases hnext

/-- **A run that closes all paths reads the lines of a body.** -/
theorem exists_body {m : Markup} {whats : List Markup.Line} {sc : Scene ω}
    (hrun : run m whats start = some sc) (hpath : sc.path = []) :
    ∃ body, whats = Item.linesOf body := closes_of_run m whats hrun hpath

end Scene
end Stencil
