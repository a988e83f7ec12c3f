import Stencil.Proofs.Bound.Copy
import Stencil.Proofs.Bound.Evaluation
import Stencil.Proofs.Template.Naming

/-!
# Fixation and names

Fixation adds the placeholders that are open to the new template, so it is there that one without a
name is found.  If all placeholders have names, nothing stops fixation but what it finds at the
slots: content that cannot be rendered, or no place for content at all.

## Main definitions

* `Content.EachTemplate` — a property of all templates of a tree.
* `Fixation.Stops` — what stops the fixation of a tree with names.

## Main results

* `Fixation.StopsBy.fixateContent` — what stops fixation, if all placeholders have names.
* `Bound.fixate_fresh_eq_emptyName_iff` — which templates cannot be fixated for want of a name.
* `Bound.fixate_edits` — what edits have to do with it.
* `Bound.fixate_unnamed` — edits can lead to a template that cannot be fixated.
-/

namespace Stencil

variable {ω : Type}

/-- All templates of the tree have the property. -/
inductive Content.EachTemplate (P : Template ω → Prop) : Tree ω → Prop where
  /-- Content that is no bound template is not looked into. -/
  | leaf {c : Tree ω} (hc : c.IsLeaf) : EachTemplate P c
  /-- A bound template has the property, and so have those in its slots. -/
  | bound {t : Template ω} {bindings : List (Option (Tree ω))} (ht : P t)
      (h : ∀ c, some c ∈ bindings → EachTemplate P c) : EachTemplate P (.bound t bindings)

theorem Content.EachTemplate.mono {P Q : Template ω → Prop} {c : Tree ω} (h : c.EachTemplate P)
    (hsub : ∀ t, P t → Q t) : c.EachTemplate Q := by
  induction h with
  | leaf hc => exact .leaf hc
  | bound ht _ ih => exact .bound (hsub _ ht) ih

namespace Fixation

/-! ### What stops a fixation -/

/-- The failure is that of a slot without a place, or that of rendering one of the contents. -/
def Stops (cs : List (Tree ω)) (e : Failure ω) : Prop :=
  e = .fault .slotOutOfRange ∨ ∃ c ∈ cs, ∃ runs, (Tree.render c runs).1 = .error e

theorem Stops.mono {cs cs' : List (Tree ω)} {e : Failure ω} (h : Stops cs e)
    (hsub : ∀ c ∈ cs, c ∈ cs') : Stops cs' e :=
  h.imp_right fun ⟨c, hc, hrender⟩ => ⟨c, hsub c hc, hrender⟩

/-- The fixation is stopped by nothing else than a slot without a place or one of the contents. -/
def StopsBy (x : Fixation ω) (cs : List (Tree ω)) : Prop := ∀ e, x.1 = .error e → Stops cs e

variable {x : Fixation ω} {cs cs' : List (Tree ω)} {separator : String}

theorem Evaluates.stopsBy {runs : Runs} (hx : x.Evaluates runs cs) : x.StopsBy cs' := by
  obtain ⟨t, rfl⟩ := hx
  intro e he
  cases he

theorem StopsBy.thenFragment {next : Template ω → Runs → Fixation ω} (hx : x.StopsBy cs)
    {fragment : Option Bytes} (hnext : ∀ target runs, (next target runs).StopsBy cs') :
    (x.thenFragment fragment next).StopsBy (cs ++ behind fragment [] cs') := by
  cases fragment with
  | none =>
    rw [behind, List.append_nil]
    exact hx
  | some f =>
    obtain ⟨result, runs⟩ := x
    intro e he
    cases result with
    | error e' => exact (hx e he).mono fun c hc => List.mem_append_left _ hc
    | ok t => exact (hnext _ runs e he).mono fun c hc => List.mem_append_right _ hc

theorem stopsBy_inline (target : Template ω) (c : Tree ω) (runs : Runs) :
    (inline target c runs).StopsBy [c] := by
  intro e he
  unfold inline at he
  split at he
  · cases he
  · next hrender =>
    cases he
    exact .inr ⟨c, List.mem_singleton_self c, runs, congrArg Prod.fst hrender⟩

theorem stopsBy_fixateSlots_of (t : Template ω) (hnames : ∀ s, t.nameAt s ≠ some "")
    (lead : String) : ∀ bindings : List (Option (Tree ω)),
      (∀ c, some c ∈ bindings → ∀ target runs,
        (fixateContent separator c lead target runs).StopsBy c.leaves) →
      ∀ slot target runs, (fixateSlots separator t lead slot bindings target runs).StopsBy
        (leavesFrom t slot bindings) := by
  intro bindings
  induction bindings with
  | nil =>
    rintro - slot target runs e ⟨⟩
    exact .inl rfl
  | cons binding rest ih =>
    intro hbound slot target runs
    have hnext := ih (fun c hc => hbound c (List.mem_cons_of_mem _ hc)) (slot + 1)
    cases binding with
    | none =>
      have hhere : (carryOver target lead (t.nameAt slot) (t.wrapAt slot) runs).StopsBy [] :=
        (evaluates_carryOver target lead (hnames slot) _ runs).stopsBy
      exact hhere.thenFragment hnext
    | some c => exact (hbound c List.mem_cons_self target runs).thenFragment hnext

/-- **Fixation is stopped by the leaves of a tree** or by slots without a place, if all placeholders
of the tree have names. -/
theorem StopsBy.fixateContent {c : Tree ω}
    (h : c.EachTemplate fun t => ∀ s, t.nameAt s ≠ some "") : ∀ lead target runs,
      (Stencil.fixateContent separator c lead target runs).StopsBy c.leaves := by
  induction h with
  | leaf hc =>
    intro lead target runs
    rw [fixateContent_leaf hc, Content.leaves_leaf hc]
    exact stopsBy_inline target _ runs
  | bound ht h ih =>
    intro lead target runs
    exact stopsBy_fixateSlots_of _ ht _ _ (fun c hc => ih c hc _) 0 target runs

/-! ### Open slots without a name -/

/-- A placeholder without a name cannot be added to the new template. -/
theorem carryOver_empty (target : Template ω) (wrap : Option ω) (runs : Runs) :
    carryOver target "" (some "") wrap runs = (.error (.fault .emptyName), runs) := rfl

/-- Where nothing is bound, fixation comes to every slot, unless it is stopped before for want of a
name. -/
theorem fixateSlots_unnamed (t : Template ω) (runs : Runs) (left : Nat) :
    ∀ {n : Nat} (target : Template ω), n + left = t.fragments.length →
      (∃ s, n ≤ s ∧ s ≤ t.fragments.length ∧ t.nameAt s = some "") →
      (fixateSlots separator t "" n (List.replicate (left + 1) none) target runs).1 =
        .error (.fault .emptyName) := by
  induction left with
  | zero =>
    rintro n target hn ⟨s, hns, hs, hname⟩
    obtain rfl : s = n := by omega
    rw [List.replicate_succ, fixateSlots, hname, carryOver_empty]
    cases t.fragments[s]? <;> rfl
  | succ left ih =>
    rintro n target hn ⟨s, hns, hs, hname⟩
    obtain ⟨f, hf⟩ : ∃ f, t.fragments[n]? = some f := ⟨_, List.getElem?_eq_getElem (by omega)⟩
    rw [List.replicate_succ, fixateSlots, hf]
    by_cases hempty : t.nameAt n = some ""
    · rw [hempty, carryOver_empty]
      rfl
    · obtain ⟨target', hrun⟩ := evaluates_carryOver target "" hempty (t.wrapAt n) runs
      have hlater : n ≠ s := fun heq => hempty (heq ▸ hname)
      rw [hrun, List.flatMap_nil, List.append_nil]
      exact ih (target'.addStatic f) (by omega) ⟨s, by omega, hs, hname⟩

end Fixation

namespace Bound

/-! ### Bound templates -/

variable {separator : String} {runs : Runs}

/-- Where nothing is bound there are no leaves. -/
theorem leavesFrom_replicate (t : Template ω) (count : Nat) :
    ∀ slot, leavesFrom t slot (List.replicate count none) = [] := by
  induction count with
  | zero => exact fun slot => rfl
  | succ count ih =>
    intro slot
    rw [List.replicate_succ, leavesFrom, ih]
    cases t.fragments[slot]? <;> rfl

/-- What stops the fixation of a bound template that has placeholders is what stops that of its
slots. -/
theorem fixate_eq_error_iff {b : Bound ω (Tree ω)} {e : Failure ω} :
    (b.fixate separator runs).1 = .error e ↔ b.template.isStatic = false ∧
      (fixateSlots separator b.template "" 0 b.bindings (.blank b.template.name) runs).1 =
        .error e := by
  unfold fixate
  generalize fixateSlots separator b.template "" 0 b.bindings (.blank b.template.name) runs = x
  obtain ⟨result, runs'⟩ := x
  cases b.template.isStatic <;> cases result <;> simp

/-- What stops the fixation of a bound template, if all placeholders have names. -/
theorem stops_of_fixate {b : Bound ω (Tree ω)}
    (h : b.toContent.EachTemplate fun t => t.WellFormed ∧ "" ∉ t.names) {e : Failure ω}
    (he : (b.fixate separator runs).1 = .error e) : Fixation.Stops b.leaves e := by
  have hnamed : b.toContent.EachTemplate fun t => ∀ s, t.nameAt s ≠ some "" :=
    h.mono fun t ht s hs => ht.2 (ht.1.lists.mem_names hs)
  have hstops : (fixateSlots separator b.template "" 0 b.bindings (.blank b.template.name)
      runs).StopsBy b.leaves := by
    cases hnamed with
    | leaf hc => exact absurd rfl (hc b.template b.bindings)
    | bound ht hbound =>
      exact Fixation.stopsBy_fixateSlots_of b.template ht "" b.bindings
        (fun c hc => .fixateContent (hbound c hc) "") 0 _ runs
  exact hstops e (fixate_eq_error_iff.1 he).2

/-- **Templates that cannot be fixated for want of a name** are those that have a placeholder
without one. -/
theorem fixate_fresh_eq_emptyName_iff {t : Template ω} (h : t.WellFormed) :
    ((fresh t : Bound ω (Tree ω)).fixate separator runs).1 = .error (.fault .emptyName) ↔
      "" ∈ t.names := by
  constructor
  · intro he
    by_contra hnames
    have htree : (fresh t : Bound ω (Tree ω)).toContent.EachTemplate
        fun t => t.WellFormed ∧ "" ∉ t.names :=
      .bound ⟨h, hnames⟩ fun c hc => absurd (List.eq_of_mem_replicate hc) (Option.some_ne_none c)
    rcases stops_of_fixate htree he with hslot | ⟨c, hc, -⟩
    · cases hslot
    · rw [leaves, fresh, leavesFrom_replicate] at hc
      cases hc
  · intro hmem
    obtain ⟨s, hs⟩ := h.lists.exists_slot hmem
    have hstatic : t.isStatic = false := by
      rw [Template.isStatic, List.isEmpty_eq_false_iff]
      rintro hnil
      rw [Template.names, hnil] at hmem
      cases hmem
    refine fixate_eq_error_iff.2 ⟨hstatic, ?_⟩
    exact Fixation.fixateSlots_unnamed t runs t.fragments.length (.blank t.name) (Nat.zero_add _)
      ⟨s, Nat.zero_le s, h.inRange s (by rw [hs]; rfl), hs⟩

/-- **Edits and names.**  All placeholders have names all along the edits just if no renaming among
them that succeeds makes a name empty.  What edits lead to can be fixated unless a placeholder has
lost its name by then; and nothing stops the fixation of bound templates in which all placeholders
have names, but a slot without a place for content or what stops the rendering of the content. -/
theorem fixate_edits (name : String) (es : List (Edit ω)) (separator : String) (runs : Runs) :
    ((Template.blank name).NeverUnnamed es ↔
      ∀ before, before <+: es → "" ∉ ((Template.blank name).edits before).names) ∧
    (((fresh ((Template.blank name).edits es) : Bound ω (Tree ω)).fixate separator runs).1 =
        .error (.fault .emptyName) ↔ "" ∈ ((Template.blank name).edits es).names) ∧
    ∀ b : Bound ω (Tree ω), (b.toContent.EachTemplate fun t => t.IsBuilt ∧ "" ∉ t.names) →
      ∀ e, (b.fixate separator runs).1 = .error e →
        e = .fault .slotOutOfRange ∨
          ∃ c ∈ b.leaves, ∃ runs, (Tree.render c runs).1 = .error e := by
  have hblank : (Template.blank name : Template ω).WellFormed := Template.wellFormed_blank name
  refine ⟨hblank.neverUnnamed_iff List.not_mem_nil, ?_, fun b hb e he => ?_⟩
  · exact fixate_fresh_eq_emptyName_iff (hblank.edits es)
  · exact stops_of_fixate (hb.mono fun t ht => ⟨ht.1.wellFormed, ht.2⟩) he

/-- A template with a renamed placeholder, and in its other slot one the placeholders of which were
all renamed at once; a text is bound there in a format for numbers. -/
def renamedTwice : Bound (Wrap Empty) (Tree (Wrap Empty)) :=
  ⟨(Template.blank "outer").edits [.addPlaceholder "x" none, .addPlaceholder "y" none,
      .rename "x" "z" false],
    [none, some (.bound ((Template.blank "inner").edits [.addPlaceholder "x" none,
      .addStatic [45], .addPlaceholder "y" none, .transform (fun n => .ok ("in " ++ n)) false])
      [none, some (.format "%d" [.str "a"] .standard)])]⟩

/-- What stops the fixation is the content of the inner template. -/
theorem fixate_edits_renamedTwice : ∃ e, (renamedTwice.fixate ":" []).1 = .error e ∧
    (e = .fault .slotOutOfRange ∨
      ∃ c ∈ renamedTwice.leaves, ∃ runs, (Tree.render c runs).1 = .error e) := by
  obtain ⟨e, he⟩ : ∃ e, (renamedTwice.fixate ":" []).1 = .error e := ⟨_, rfl⟩
  have htree : renamedTwice.toContent.EachTemplate fun t => t.IsBuilt ∧ "" ∉ t.names := by
    refine .bound ⟨⟨_, _, rfl⟩, by decide +kernel⟩ fun c hc => ?_
    simp only [renamedTwice, List.mem_cons, List.not_mem_nil, or_false, Option.some.injEq,
      reduceCtorEq, false_or] at hc
    subst hc
    refine .bound ⟨⟨_, _, rfl⟩, by decide +kernel⟩ fun c hc => ?_
    simp only [List.mem_cons, List.not_mem_nil, or_false, Option.some.injEq, reduceCtorEq,
      false_or] at hc
    subst hc
    exact .leaf fun t bindings h => by cases h
  exact ⟨e, he, (fixate_edits "outer" [] ":" []).2.2 renamedTwice htree e he⟩

/-- A renaming can leave a placeholder without a name, alone or with all others; such a template
cannot be fixated. -/
theorem fixate_unnamed :
    let renamed : Template Unit :=
      (Template.blank "t").edits [.addPlaceholder "a" none, .rename "a" "" false]
    let transformed : Template Unit :=
      (Template.blank "t").edits [.addPlaceholder "a" none, .transform (fun _ => .ok "") false]
    ("" ∈ renamed.names ∧
      ((fresh renamed).fixate ":" []).1 = .error (.fault .emptyName)) ∧
    ("" ∈ transformed.names ∧
      ((fresh transformed).fixate ":" []).1 = .error (.fault .emptyName)) ∧
    Fault.emptyName.kind = .value :=
  ⟨⟨by decide +kernel, rfl⟩, ⟨by decide +kernel, rfl⟩, rfl⟩

end Bound
end Stencil
