import Stencil.Proofs.Bound.Fixation

/-!
# How often content is evaluated

Content may run scripts of the caller, so it matters how often it is evaluated, and in which order.
The contents of a tree that are not bound templates themselves are its leaves; they come in the
order of emission, and as often as they are bound.  Emission evaluates the leaves one after the
other, up to the one that stops it.  Fixation evaluates the same ones, each once, and it goes on
where a slot is open.  The new template holds what they wrote and evaluates none of them again.

## Main definitions

* `Content.leaves` — the leaves of a tree.
* `Tree.runsOf` — the scripts that run when content is rendered.
* `Tree.Evaluates`, `Emission.Evaluates` — contents that are evaluated one after the other.
* `Content.Fixable` — trees that fixation can take in.

## Main results

* `Tree.emit_evaluates` — emission evaluates the leaves.
* `Content.Fixable.fixateContent` — fixation evaluates each leaf once.
* `Content.whole_iff` — trees that are written whole.
* `Bound.fixate_evaluates` — both for a bound template, and what emission of the new one evaluates.
-/

namespace Stencil

variable {σ ω : Type}

/-! ### Leaves -/

mutual

/-- The contents of a tree that are no bound templates, in the order of emission. -/
def Content.leaves : Content ω Empty → List (Content ω Empty)
  | .bound t bindings => leavesFrom t 0 bindings
  | c => [c]
  termination_by structural c => c

/-- The leaves of what is bound to a template, from `slot` on. -/
def leavesFrom :
    Template ω → (slot : Nat) → (bindings : List (Option (Content ω Empty))) →
      List (Content ω Empty)
  | _, _, [] => []
  | t, slot, none :: rest => behind t.fragments[slot]? [] (leavesFrom t (slot + 1) rest)
  | t, slot, some c :: rest =>
    Content.leaves c ++ behind t.fragments[slot]? [] (leavesFrom t (slot + 1) rest)
  termination_by structural _ _ bindings => bindings

end

theorem Content.leaves_leaf {c : Tree ω} (hc : c.IsLeaf) : c.leaves = [c] := by
  cases c with
  | bound template bindings => exact absurd rfl (hc template bindings)
  | _ => rfl

/-- The leaves of a bound template. -/
def Bound.leaves (b : Bound ω (Tree ω)) : List (Tree ω) := leavesFrom b.template 0 b.bindings

/-! ### Evaluation -/

namespace Tree

/-- The scripts that run when content is rendered. -/
def runsOf (c : Tree ω) : Runs := (Tree.emit c Sink.buffer [] []).runs

/-- The contents are emitted to a sink one after the other, each in some state of the sink; `runs`
lists the scripts that ran before, and `runs'` those that have run then. -/
inductive Evaluates (k : Sink σ) : List (Tree ω) → (runs runs' : Runs) → Prop
  /-- Nothing is emitted. -/
  | nil (runs : Runs) : Evaluates k [] runs runs
  /-- Content is emitted before the others. -/
  | cons {c : Tree ω} {rest : List (Tree ω)} {s : σ} {runs runs' : Runs}
    (h : Evaluates k rest (Tree.emit c k s runs).runs runs') : Evaluates k (c :: rest) runs runs'

variable {k : Sink σ} {cs cs' : List (Tree ω)} {runs runs' runs'' : Runs}

theorem Evaluates.append (h : Evaluates k cs runs runs') (h' : Evaluates k cs' runs' runs'') :
    Evaluates k (cs ++ cs') runs runs'' := by
  induction h with
  | nil runs => exact h'
  | cons h ih => exact .cons (ih h')

/-- To a buffer content is emitted as it is rendered, whatever was emitted before. -/
theorem runs_emit_buffer (c : Tree ω) (held : Bytes) (runs : Runs) :
    (Tree.emit c Sink.buffer held runs).runs = runs ++ c.runsOf := by
  have halike : Sink.buffer.Alike Sink.buffer fun s s' => s = held ++ s' := by
    rintro data s s' rfl
    exact ⟨rfl, List.append_assoc held s' data⟩
  obtain ⟨new, hruns, hruns'⟩ :=
    (Tree.emit_alike c halike (List.append_nil held).symm runs []).runs
  rw [hruns, runsOf, hruns', List.nil_append]

theorem runs_render (c : Tree ω) (runs : Runs) : (Tree.render c runs).2 = runs ++ c.runsOf := by
  rw [← runs_emit_buffer c [] runs]
  unfold Tree.render
  dsimp only
  split
  · rfl
  · split <;> rfl

/-- In a buffer every content runs the scripts that it runs when it is rendered. -/
theorem Evaluates.runs_eq (h : Evaluates Sink.buffer cs runs runs') :
    runs' = runs ++ cs.flatMap runsOf := by
  induction h with
  | nil runs => exact (List.append_nil runs).symm
  | cons h ih => rw [ih, runs_emit_buffer, List.flatMap_cons, List.append_assoc]

end Tree

/-! ### What emission evaluates -/

namespace Emission

variable {k : Sink σ} {e : Emission σ EmitResult} {next : σ → Runs → Emission σ EmitResult}
  {cs cs' : List (Tree ω)} {runs : Runs}

/-- The emission evaluates the contents in order, and stops after one of them unless it succeeds. -/
def Evaluates (k : Sink σ) (runs : Runs) (e : Emission σ EmitResult) (cs : List (Tree ω)) : Prop :=
  ∃ evaluated, evaluated <+: cs ∧ Tree.Evaluates k evaluated runs e.runs ∧
    (e.succeeded = true → evaluated = cs)

theorem evaluates_nil {outcome : Except Fault EmitResult} {s : σ} :
    Evaluates (ω := ω) k runs ⟨outcome, s, runs⟩ [] :=
  ⟨[], List.prefix_rfl, .nil runs, fun _ => rfl⟩

theorem evaluates_bytes (data : Bytes) (s : σ) :
    (bytes k data s runs).Evaluates (ω := ω) k runs [] := evaluates_nil

/-- The emission of content evaluates the content. -/
theorem evaluates_emit (c : Tree ω) (s : σ) : (Tree.emit c k s runs).Evaluates k runs [c] :=
  ⟨[c], List.prefix_rfl, .cons (.nil _), fun _ => rfl⟩

theorem Evaluates.map (h : e.Evaluates k runs cs) {f : EmitResult → EmitResult}
    (hf : ∀ r, (f r).isOk = r.isOk) : (e.map f).Evaluates k runs cs := by
  obtain ⟨evaluated, hprefix, hruns, hall⟩ := h
  refine ⟨evaluated, hprefix, hruns, fun hs => hall ?_⟩
  obtain ⟨outcome, s, runs'⟩ := e
  cases outcome with
  | ok r => exact (hf r).symm.trans hs
  | error f => exact hs

theorem Evaluates.settled (h : e.Evaluates k runs cs) : e.settled.Evaluates k runs cs := by
  rw [settled_eq_map]
  exact h.map (EmitResult.isOk_andThen _)

/-- An emission that does not succeed evaluates no more. -/
theorem Evaluates.stopped (h : e.Evaluates k runs cs) (hs : e.succeeded = false)
    (cs' : List (Tree ω)) : e.Evaluates k runs (cs ++ cs') := by
  obtain ⟨evaluated, hprefix, hruns, -⟩ := h
  refine ⟨evaluated, hprefix.trans (List.prefix_append _ _), hruns, fun hs' => ?_⟩
  cases hs.symm.trans hs'

theorem Evaluates.followedBy (h : e.Evaluates k runs cs)
    (hnext : ∀ s runs, (next s runs).Evaluates k runs cs') :
    (e.followedBy next).Evaluates k runs (cs ++ cs') := by
  cases ho : e.outcome with
  | error f =>
    have hs : e.succeeded = false := by rw [succeeded, ho]
    obtain ⟨evaluated, hprefix, hruns, hall⟩ := h.stopped hs cs'
    rw [followedBy_of_fault ho]
    exact ⟨evaluated, hprefix, hruns, hall⟩
  | ok r =>
    have hs : e.succeeded = r.isOk := by rw [succeeded, ho]
    cases hr : r.isOk with
    | false =>
      rw [followedBy_of_stopped ho hr]
      exact h.stopped (hs.trans hr) cs'
    | true =>
      rw [followedBy_of_done ho hr]
      refine Evaluates.map ?_ (EmitResult.isOk_andThen r)
      obtain ⟨evaluated, -, hruns, hall⟩ := h
      obtain rfl := hall (hs.trans hr)
      obtain ⟨evaluated', hprefix', hruns', hall'⟩ := hnext e.sink e.runs
      exact ⟨evaluated ++ evaluated', (List.prefix_append_right_inj evaluated).2 hprefix',
        hruns.append hruns', fun hs' => congrArg (evaluated ++ ·) (hall' hs')⟩

theorem Evaluates.thenFragment (h : e.Evaluates k runs cs)
    (hnext : ∀ s runs, (next s runs).Evaluates k runs cs') (fragment : Option Bytes) :
    (e.thenFragment k fragment next).Evaluates k runs (cs ++ behind fragment [] cs') := by
  cases fragment with
  | none =>
    rw [behind, List.append_nil]
    exact h
  | some f =>
    have hfragment := h.followedBy fun s runs => evaluates_bytes (k := k) f s
    rw [List.append_nil] at hfragment
    exact hfragment.followedBy hnext

end Emission

/-- The contents that emission comes to at the slots of a template from `slot` on, if for content at
a slot they are `at_`. -/
def visited (at_ : Tree ω → List (Tree ω)) (t : Template ω) : (slot : Nat) →
    List (Option (Tree ω)) → List (Tree ω)
  | _, [] => []
  | slot, binding :: rest =>
    binding.elim [] at_ ++ behind t.fragments[slot]? [] (visited at_ t (slot + 1) rest)

theorem visited_leaves (t : Template ω) : ∀ (bindings : List (Option (Tree ω))) (slot : Nat),
    visited Content.leaves t slot bindings = leavesFrom t slot bindings := by
  intro bindings
  induction bindings with
  | nil => exact fun slot => rfl
  | cons binding rest ih =>
    intro slot
    cases binding with
    | none => rw [visited, ih]; rfl
    | some c => rw [visited, ih]; rfl

theorem emitSlots_evaluates (k : Sink σ) (t : Template ω) (at_ : Tree ω → List (Tree ω)) :
    ∀ bindings : List (Option (Tree ω)),
      (∀ c, some c ∈ bindings → ∀ s runs, (Tree.emit c k s runs).Evaluates k runs (at_ c)) →
      ∀ (slot : Nat) (s : σ) (runs : Runs),
        (emitSlots t slot bindings k s runs).Evaluates k runs (visited at_ t slot bindings) := by
  intro bindings
  induction bindings with
  | nil => exact fun _ slot s runs => Emission.evaluates_nil
  | cons binding rest ih =>
    intro hbound slot s runs
    have hnext := ih (fun c hc => hbound c (List.mem_cons_of_mem _ hc)) (slot + 1)
    cases binding with
    | none =>
      refine Emission.Evaluates.thenFragment ?_ hnext _
      cases t.nameAt slot <;> exact Emission.evaluates_nil
    | some c => exact (hbound c List.mem_cons_self s runs).settled.thenFragment hnext _

/-- **Emission evaluates the leaves of a tree** in order, and stops after one of them unless it
succeeds. -/
theorem Tree.emit_evaluates (k : Sink σ) (c : Tree ω) :
    ∀ (s : σ) (runs : Runs), (Tree.emit c k s runs).Evaluates k runs c.leaves := by
  induction c using Content.inductBound with
  | leaf c hc =>
    intro s runs
    rw [Content.leaves_leaf hc]
    exact Emission.evaluates_emit c s
  | bound t bindings ih =>
    intro s runs
    have hslots := emitSlots_evaluates k t Content.leaves bindings ih 0 s runs
    rw [visited_leaves] at hslots
    exact hslots

/-! ### What fixation evaluates -/

mutual

/-- Fixation can take in the content: at the slots that emission comes to, every slot has a place,
no open slot has an empty name, and what is no bound template is written whole. -/
def Content.Fixable : Content ω Empty → Prop
  | .bound t bindings => FixableFrom t 0 bindings
  | c => (Tree.written c).whole = true
  termination_by structural c => c

/-- Fixation can take in what is bound to a template, from `slot` on. -/
def FixableFrom :
    Template ω → (slot : Nat) → (bindings : List (Option (Content ω Empty))) → Prop
  | _, _, [] => False
  | t, slot, none :: rest =>
    t.nameAt slot ≠ some "" ∧ (t.fragments[slot]?.isSome → FixableFrom t (slot + 1) rest)
  | t, slot, some c :: rest =>
    Content.Fixable c ∧ (t.fragments[slot]?.isSome → FixableFrom t (slot + 1) rest)
  termination_by structural _ _ bindings => bindings

end

namespace Content

variable {c : Tree ω}

theorem fixable_leaf (hc : c.IsLeaf) : c.Fixable ↔ (Tree.written c).whole = true := by
  cases c with
  | bound template bindings => exact absurd rfl (hc template bindings)
  | _ => rfl

theorem fixableFrom_of (t : Template ω) (hnames : ∀ s, t.nameAt s ≠ some "") :
    ∀ (bindings : List (Option (Tree ω))) (slot : Nat),
      t.slotCount ≤ slot + bindings.length → slot ≤ t.fragments.length →
      (∀ c, some c ∈ bindings → c.Fixable) → FixableFrom t slot bindings := by
  intro bindings
  induction bindings with
  | nil =>
    intro slot hlen hslot _
    rw [Template.slotCount, List.length_nil] at hlen
    omega
  | cons binding rest ih =>
    intro slot hlen hslot hbound
    have hrest (hf : t.fragments[slot]?.isSome) : FixableFrom t (slot + 1) rest := by
      rw [List.length_cons] at hlen
      obtain ⟨f, hf⟩ := Option.isSome_iff_exists.1 hf
      have hlt := (List.getElem?_eq_some_iff.1 hf).1
      exact ih (slot + 1) (by omega) hlt fun c hc => hbound c (List.mem_cons_of_mem _ hc)
    cases binding with
    | none => exact ⟨hnames slot, hrest⟩
    | some c => exact ⟨hbound c List.mem_cons_self, hrest⟩

/-- Fixation can take in a bound template with a place for every slot and no empty name, if it can
take in what is bound to it. -/
theorem fixable_bound {t : Template ω} {bindings : List (Option (Tree ω))}
    (hnames : ∀ s, t.nameAt s ≠ some "") (hlen : t.slotCount ≤ bindings.length)
    (hbound : ∀ c, some c ∈ bindings → c.Fixable) : (Content.bound t bindings).Fixable :=
  fixableFrom_of t hnames bindings 0 (by omega) (Nat.zero_le _) hbound

end Content

namespace Fixation

/-- The fixation makes a template, and evaluates the contents once each, in order. -/
def Evaluates (runs : Runs) (x : Fixation ω) (cs : List (Tree ω)) : Prop :=
  ∃ t, x = (.ok t, runs ++ cs.flatMap Tree.runsOf)

variable {runs : Runs} {x : Fixation ω} {cs cs' : List (Tree ω)} {target : Template ω}

theorem evaluates_nil : Evaluates runs (.ok target, runs) [] :=
  ⟨target, by rw [List.flatMap_nil, List.append_nil]⟩

theorem Evaluates.thenFragment {next : Template ω → Runs → Fixation ω}
    (hx : x.Evaluates runs cs) {fragment : Option Bytes}
    (hnext : fragment.isSome → ∀ target runs, (next target runs).Evaluates runs cs') :
    (x.thenFragment fragment next).Evaluates runs (cs ++ behind fragment [] cs') := by
  cases fragment with
  | none =>
    rw [behind, List.append_nil]
    exact hx
  | some f =>
    obtain ⟨t, rfl⟩ := hx
    obtain ⟨t', ht'⟩ := hnext rfl (t.addStatic f) (runs ++ cs.flatMap Tree.runsOf)
    refine ⟨t', ht'.trans ?_⟩
    rw [behind, List.flatMap_append, List.append_assoc]

/-- Content that is written whole is evaluated once to become static. -/
theorem evaluates_inline {c : Tree ω} (hc : (Tree.written c).whole = true) (target : Template ω)
    (runs : Runs) : (inline target c runs).Evaluates runs [c] := by
  have hall : Tree.written c = .all (Tree.written c).bytes := by
    rw [Written.all, ← hc]
  have hrender : Tree.render c runs = (.ok (Tree.written c).bytes, runs ++ c.runsOf) :=
    Prod.ext ((Tree.render_eq_ok_iff c runs _).2 hall) (Tree.runs_render c runs)
  refine ⟨target.addStatic (Tree.written c).bytes, ?_⟩
  rw [inline, hrender, List.flatMap_singleton]

/-- A placeholder with a name is carried over, and nothing is evaluated. -/
theorem evaluates_carryOver (target : Template ω) (lead : String) {name : Option String}
    (hname : name ≠ some "") (wrap : Option ω) (runs : Runs) :
    (carryOver target lead name wrap runs).Evaluates runs [] := by
  cases name with
  | none => exact evaluates_nil
  | some name =>
    have hlead : lead ++ name ≠ "" := fun he =>
      hname (congrArg some (String.append_eq_empty_iff.1 he).2)
    rw [carryOver, Template.addPlaceholder_eq_ok_iff.2 ⟨hlead, rfl⟩]
    exact evaluates_nil

end Fixation

theorem FixableFrom.fixateSlots_of (separator : String) (t : Template ω) (lead : String) :
    ∀ bindings : List (Option (Tree ω)),
      (∀ c, some c ∈ bindings → c.Fixable → ∀ target runs,
        (fixateContent separator c lead target runs).Evaluates runs c.leaves) →
      ∀ slot, FixableFrom t slot bindings → ∀ target runs,
        (fixateSlots separator t lead slot bindings target runs).Evaluates runs
          (leavesFrom t slot bindings) := by
  intro bindings
  induction bindings with
  | nil => exact fun _ slot h => h.elim
  | cons binding rest ih =>
    intro hbound slot h target runs
    have hnext := ih (fun c hc => hbound c (List.mem_cons_of_mem _ hc)) (slot + 1)
    cases binding with
    | none =>
      obtain ⟨hname, hrest⟩ := h
      exact (Fixation.evaluates_carryOver target lead hname _ runs).thenFragment
        fun hf => hnext (hrest hf)
    | some c =>
      obtain ⟨hc, hrest⟩ := h
      exact (hbound c List.mem_cons_self hc target runs).thenFragment fun hf => hnext (hrest hf)

/-- **Fixation evaluates each leaf of a tree once**, in order. -/
theorem Content.Fixable.fixateContent (separator : String) {c : Tree ω} (h : c.Fixable) :
    ∀ lead target runs,
      (Stencil.fixateContent separator c lead target runs).Evaluates runs c.leaves := by
  induction c using Content.inductBound with
  | leaf c hc =>
    intro lead target runs
    rw [fixateContent_leaf hc, Content.leaves_leaf hc]
    exact Fixation.evaluates_inline ((Content.fixable_leaf hc).1 h) target runs
  | bound t bindings ih =>
    intro lead target runs
    exact FixableFrom.fixateSlots_of separator t _ bindings (fun c hc hfix => ih c hc hfix _) 0 h
      target runs

/-! ### Trees without open slots -/

theorem behind_eq_nil_iff {α : Type} {fragment : Option Bytes} {next : List α} :
    behind fragment [] next = [] ↔ (fragment.isSome → next = []) := by
  cases fragment <;> simp [behind]

theorem whole_slotsWritten_iff_of {separator : String} (t : Template ω) (lead : String) :
    ∀ bindings : List (Option (Tree ω)),
      (∀ c, some c ∈ bindings → ((Tree.written c).whole = true ↔
        c.Fixable ∧ c.openSlots separator lead = [])) →
      ∀ slot, (slotsWritten t slot bindings).whole = true ↔
        FixableFrom t slot bindings ∧ openSlotsFrom separator t lead slot bindings = [] := by
  intro bindings
  induction bindings with
  | nil => exact fun _ slot => iff_of_false Bool.false_ne_true fun h => h.1
  | cons binding rest ih =>
    intro hbound slot
    have hnext := ih (fun c hc => hbound c (List.mem_cons_of_mem _ hc)) (slot + 1)
    have hrest : (t.fragments[slot]?.isSome → (slotsWritten t (slot + 1) rest).whole = true) ↔
        (t.fragments[slot]?.isSome → FixableFrom t (slot + 1) rest) ∧
          behind t.fragments[slot]? [] (openSlotsFrom separator t lead (slot + 1) rest) = [] := by
      rw [hnext, imp_and, behind_eq_nil_iff]
    rw [slotsWritten, Written.whole_thenFragment, hrest]
    cases binding with
    | none =>
      have hhere : (slotWritten (t.nameAt slot) (none : Option (Tree ω))).whole = true ↔
          t.nameAt slot ≠ some "" ∧ openSlot lead (t.nameAt slot) (t.wrapAt slot) = [] := by
        cases t.nameAt slot <;> simp [slotWritten, openSlot]
      rw [hhere, FixableFrom, openSlotsFrom, List.append_eq_nil_iff]
      exact and_and_and_comm
    | some c =>
      have hhere : (slotWritten (t.nameAt slot) (some c)).whole = true ↔
          c.Fixable ∧ c.openSlots separator lead = [] := hbound c List.mem_cons_self
      rw [hhere, FixableFrom, openSlotsFrom, List.append_eq_nil_iff]
      exact and_and_and_comm

/-- **Content is written whole** just if fixation can take it in and no slot of it is open. -/
theorem Content.whole_iff (separator : String) (c : Tree ω) : ∀ lead,
    (Tree.written c).whole = true ↔ c.Fixable ∧ c.openSlots separator lead = [] := by
  induction c using Content.inductBound with
  | leaf c hc =>
    intro lead
    rw [Content.fixable_leaf hc, Content.openSlots_leaf hc, eq_self, and_true]
  | bound t bindings ih =>
    intro lead
    rw [Tree.written_bound]
    exact whole_slotsWritten_iff_of t _ bindings (fun c hc => ih c hc _) 0

/-! ### Emission of the new template -/

section Filled

variable [Wrapping ω (Tree ω)]

/-- The contents in the holes of a template that are filled, in order. -/
def Template.contents (t : Template ω) (fill : String → Tree ω) : List (Tree ω) :=
  t.holes.map fun hole => Tree.under hole.2 (fill hole.1)

/-- The state of a sink, and the scripts that ran, after a template was emitted to it with other
content each time. -/
def Template.emitFilled (t : Template ω) (k : Sink σ) (fills : List (String → Tree ω)) (s : σ)
    (runs : Runs) : σ × Runs :=
  fills.foldl (fun state fill =>
    let e := Tree.emit (Bound.bindEach fill t.names (Bound.fresh t)).1.toContent k state.1 state.2
    (e.sink, e.runs)) (s, runs)

theorem visited_filling (t : Template ω) (fill : String → Tree ω) (count : Nat) :
    ∀ slot, slot + count = t.fragments.length →
      visited (fun c => [c]) t slot ((List.range' slot (count + 1)).map (t.filling fill)) =
        (List.range' slot (count + 1)).filterMap (t.filling fill) := by
  induction count with
  | zero =>
    intro slot hslot
    have hnone : t.fragments[slot]? = none := List.getElem?_eq_none (by omega)
    rw [List.range'_succ, List.map_cons, visited, hnone, List.filterMap_cons]
    cases t.filling fill slot <;> rfl
  | succ count ih =>
    intro slot hslot
    obtain ⟨f, hf⟩ : ∃ f, t.fragments[slot]? = some f := ⟨_, List.getElem?_eq_getElem (by omega)⟩
    rw [List.range'_succ, List.map_cons, visited, hf, behind, ih (slot + 1) (by omega),
      List.filterMap_cons]
    cases t.filling fill slot <;> rfl

/-- A filled template evaluates the contents of its holes. -/
theorem Template.WellFormed.emit_filled {t : Template ω} (h : t.WellFormed) (k : Sink σ)
    (fill : String → Tree ω) (s : σ) (runs : Runs) :
    (Tree.emit (Bound.bindEach fill t.names (Bound.fresh t)).1.toContent k s runs).Evaluates k runs
      (t.contents fill) := by
  have hcontents : visited (fun c => [c]) t 0 ((List.range t.slotCount).map (t.filling fill)) =
      t.contents fill := by
    rw [List.range_eq_range', Template.slotCount, visited_filling t fill _ 0 (Nat.zero_add _),
      Template.contents, Template.holes, Template.slotCount, List.map_filterMap,
      List.range_eq_range']
    refine List.filterMap_congr fun slot _ => ?_
    rw [Template.filling, Option.map_map]
    rfl
  rw [Bound.bindEach_fresh h (fun _ => Iff.rfl) fill, ← hcontents]
  exact emitSlots_evaluates k t (fun c => [c]) _
    (fun c _ s runs => Emission.evaluates_emit c s) 0 s runs

/-- However often it is emitted, it evaluates only these. -/
theorem Template.WellFormed.emitFilled {t : Template ω} (h : t.WellFormed) (k : Sink σ)
    (fills : List (String → Tree ω)) : ∀ (s : σ) (runs : Runs),
      ∃ evaluated, evaluated.Sublist (fills.flatMap t.contents) ∧
        Tree.Evaluates k evaluated runs (t.emitFilled k fills s runs).2 := by
  induction fills with
  | nil => exact fun s runs => ⟨[], List.Sublist.refl _, .nil runs⟩
  | cons fill fills ih =>
    intro s runs
    obtain ⟨first, hprefix, hfirst, -⟩ := h.emit_filled k fill s runs
    obtain ⟨rest, hsublist, hrest⟩ := ih _ _
    exact ⟨first ++ rest, hprefix.sublist.append hsublist, hfirst.append hrest⟩

end Filled

/-! ### Bound templates -/

namespace Bound

variable {b : Bound ω (Tree ω)}

theorem whole_iff (b : Bound ω (Tree ω)) (separator : String) :
    (Tree.written b.toContent).whole = true ↔
      b.toContent.Fixable ∧ b.openSlots separator = [] := by
  rw [toContent, Tree.written_bound]
  exact whole_slotsWritten_iff_of b.template "" b.bindings
    (fun c _ => Content.whole_iff separator c "") 0

/-- A bound template that fixation can take in is fixated. -/
theorem exists_fixate (h : b.toContent.Fixable) (hplaceholders : b.template.isStatic = false)
    (separator : String) (runs : Runs) :
    ∃ t, b.fixate separator runs = (.ok (some t), runs ++ b.leaves.flatMap Tree.runsOf) := by
  obtain ⟨t, ht⟩ := FixableFrom.fixateSlots_of separator b.template "" b.bindings
    (fun c _ hc => hc.fixateContent separator "") 0 h (.blank b.template.name) runs
  refine ⟨t, ?_⟩
  rw [fixate, hplaceholders, ht]
  rfl

variable [Wrapping ω (Tree ω)]

/-- **Fixation evaluates each leaf of a bound template once**, as often as it is bound and in the
order of emission, also where slots are open.  Emission to a sink evaluates the same leaves in the
same order, up to the one that stops it; to a buffer, if no slot is open, it runs the same scripts
as fixation.  The new template, emitted any number of times with other content in its holes,
evaluates that content and none of the leaves again. -/
theorem fixate_evaluates (h : b.toContent.Fixable) (hplaceholders : b.template.isStatic = false)
    (separator : String) (runs : Runs) :
    (∀ (σ : Type) (k : Sink σ) (s : σ) (runs : Runs),
      (Tree.emit b.toContent k s runs).Evaluates k runs b.leaves) ∧
    (b.openSlots separator = [] → ∀ held,
      (Tree.emit b.toContent Sink.buffer held runs).succeeded = true ∧
        (Tree.emit b.toContent Sink.buffer held runs).runs = (b.fixate separator runs).2) ∧
    ∃ t, b.fixate separator runs = (.ok (some t), runs ++ b.leaves.flatMap Tree.runsOf) ∧
      ∀ (σ : Type) (k : Sink σ) (s : σ) (runs : Runs) (fills : List (String → Tree ω)),
        ∃ evaluated, evaluated.Sublist (fills.flatMap t.contents) ∧
          Tree.Evaluates k evaluated runs (t.emitFilled k fills s runs).2 := by
  obtain ⟨t, hfixate⟩ := exists_fixate h hplaceholders separator runs
  have hwf : t.WellFormed := (parts_of_fixate (congrArg Prod.fst hfixate)).1
  refine ⟨fun σ k s runs => Tree.emit_evaluates k b.toContent s runs, fun hopen held => ?_, t,
    hfixate, fun σ k s runs fills => hwf.emitFilled k fills s runs⟩
  have hwhole : (Tree.written b.toContent).whole = true := (b.whole_iff separator).2 ⟨h, hopen⟩
  have hsucceeded := (Tree.emit_writes b.toContent held runs).succeeded.trans hwhole
  obtain ⟨evaluated, -, hruns, hall⟩ := Tree.emit_evaluates Sink.buffer b.toContent held runs
  obtain rfl := hall hsucceeded
  exact ⟨hsucceeded, by rw [hruns.runs_eq, hfixate]; rfl⟩

/-- A script that writes a text, and is known by it. -/
def telling (text : String) : Tree (Wrap Empty) :=
  .generator (some text) (.write (Utf8.encode text.toList) fun _ => .done (.value (.int 1)))

/-- A template with content at two of its slots; the one in between is open, and so is one of the
template that is bound at the last. -/
def halfBound : Bound (Wrap Empty) (Tree (Wrap Empty)) :=
  ⟨(Template.blank "outer").edits [.addPlaceholder "x" none, .addPlaceholder "y" none,
      .addPlaceholder "z" none],
    [some (telling "a"), none, some (.bound ((Template.blank "inner").edits
      [.addPlaceholder "x" none, .addPlaceholder "y" none, .addStatic [45],
        .addPlaceholder "z" none]) [some (telling "b"), none, some (telling "a")])]⟩

theorem fixate_evaluates_halfBound :
    ∃ t, halfBound.fixate ":" [] = (.ok (some t), ["a", "b", "a"]) ∧
      ∀ text text' : String, ∃ evaluated,
        evaluated.Sublist [telling text, telling text, telling text', telling text'] ∧
        Tree.Evaluates Sink.buffer evaluated ["a", "b", "a"]
          (t.emitFilled Sink.buffer [fun _ => telling text, fun _ => telling text'] []
            ["a", "b", "a"]).2 := by
  have hfixable {t : Template (Wrap Empty)} {bindings : List (Option (Tree (Wrap Empty)))}
      (h : t.IsBuilt) (hnames : ∀ n ∈ t.names, n ≠ "") (hlen : t.slotCount ≤ bindings.length)
      (hbound : ∀ c, some c ∈ bindings → c.Fixable) : (Content.bound t bindings).Fixable :=
    Content.fixable_bound (h.wellFormed.nameAt_ne_empty hnames) hlen hbound
  have hleaf {text : String} (h : (Tree.written (telling text)).whole = true) :
      (telling text).Fixable := h
  have hhalfBound : halfBound.toContent.Fixable := by
    refine hfixable ⟨_, _, rfl⟩ (by decide +kernel) (by decide +kernel) fun c hc => ?_
    simp only [halfBound, List.mem_cons, List.not_mem_nil, or_false, Option.some.injEq,
      reduceCtorEq, false_or] at hc
    rcases hc with rfl | rfl
    · exact hleaf (by decide +kernel)
    · refine hfixable ⟨_, _, rfl⟩ (by decide +kernel) (by decide +kernel) fun c hc => ?_
      simp only [List.mem_cons, List.not_mem_nil, or_false, Option.some.injEq, reduceCtorEq,
        false_or] at hc
      rcases hc with rfl | rfl <;> exact hleaf (by decide +kernel)
  obtain ⟨-, -, t, ht, hemitted⟩ := fixate_evaluates hhalfBound rfl ":" []
  have hruns : halfBound.leaves.flatMap Tree.runsOf = ["a", "b", "a"] := by decide +kernel
  rw [hruns, List.nil_append] at ht
  have hholes : t.holes = [("y", none), ("inner:y", none)] :=
    (parts_of_fixate (congrArg Prod.fst ht)).2.1
  refine ⟨t, ht, fun text text' => ?_⟩
  have hcontents (text : String) : t.contents (fun _ => telling text) =
      [telling text, telling text] := by
    rw [Template.contents, hholes]
    rfl
  obtain ⟨evaluated, hsublist, hruns⟩ := hemitted Bytes Sink.buffer [] ["a", "b", "a"]
    [fun _ => telling text, fun _ => telling text']
  simp only [List.flatMap_cons, List.flatMap_nil, hcontents] at hsublist
  exact ⟨evaluated, hsublist, hruns⟩

end Bound
end Stencil
