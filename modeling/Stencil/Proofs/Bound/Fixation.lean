import Stencil.Proofs.Bound.Binding
import Stencil.Proofs.Bound.Keeps

/-!
# Fixation

A bound template is a tree of templates.  Its open slots are the named slots without content that
emission would come to, each under the name that leads to it.  Fixation puts the parts of the tree
in a row: what is not open becomes bytes, and the open slots become holes.  So filling the holes of
the new template writes what filling the open slots of the tree does.

## Main definitions

* `Content.openSlots`, `Bound.openSlots` — the open slots of a tree, with names and wraps.
* `Content.plug`, `Bound.plug` — the tree with content in its open slots.
* `Fixation.Adds` — what a fixation adds to the template that is being built.

## Main results

* `Fixation.adds_fixateContent` — fixation adds the parts of a tree.
* `Bound.fixate_refines` — the fixated template stands for the tree.
-/

namespace Stencil

variable {ω : Type}

/-! ### Open slots -/

/-- The slots after a fragment, of which there are none after the last slot. -/
def behind {α : Type} (fragment : Option Bytes) (last next : List α) : List α :=
  match fragment with
  | none => last
  | some _ => next

/-- The open slot at a slot without content that has a name. -/
def openSlot (lead : String) (name : Option String) (wrap : Option ω) :
    List (String × Option ω) :=
  match name with
  | none => []
  | some name => [(lead ++ name, wrap)]

mutual

/-- The open slots of content in the order of emission; `lead` comes before names. -/
def Content.openSlots (separator : String) :
    Content ω Empty → (lead : String) → List (String × Option ω)
  | .bound t bindings, lead => openSlotsFrom separator t (lead ++ t.name ++ separator) 0 bindings
  | _, _ => []
  termination_by structural c => c

/-- The open slots of a template and what is bound to it, from `slot` on. -/
def openSlotsFrom (separator : String) :
    Template ω → (lead : String) → (slot : Nat) → (bindings : List (Option (Content ω Empty))) →
      List (String × Option ω)
  | _, _, _, [] => []
  | t, lead, slot, none :: rest =>
    openSlot lead (t.nameAt slot) (t.wrapAt slot) ++
      behind t.fragments[slot]? [] (openSlotsFrom separator t lead (slot + 1) rest)
  | t, lead, slot, some c :: rest =>
    Content.openSlots separator c lead ++
      behind t.fragments[slot]? [] (openSlotsFrom separator t lead (slot + 1) rest)
  termination_by structural _ _ _ bindings => bindings

end

section Plug

variable [Wrapping ω (Tree ω)]

/-- What fills a slot without content: the content for its name, under its wrap. -/
def plugSlot (fill : String → Tree ω) (lead : String) (name : Option String) (wrap : Option ω) :
    Option (Tree ω) :=
  name.map fun name => Tree.under wrap (fill (lead ++ name))

mutual

/-- The content with its open slots filled. -/
def Content.plug (separator : String) (fill : String → Content ω Empty) :
    Content ω Empty → (lead : String) → Content ω Empty
  | .bound t bindings, lead =>
    .bound t (plugFrom separator fill t (lead ++ t.name ++ separator) 0 bindings)
  | c, _ => c
  termination_by structural c => c

/-- What is bound to a template, with the open slots filled from `slot` on. -/
def plugFrom (separator : String) (fill : String → Content ω Empty) :
    Template ω → (lead : String) → (slot : Nat) → (bindings : List (Option (Content ω Empty))) →
      List (Option (Content ω Empty))
  | _, _, _, [] => []
  | t, lead, slot, none :: rest =>
    plugSlot fill lead (t.nameAt slot) (t.wrapAt slot) ::
      behind t.fragments[slot]? rest (plugFrom separator fill t lead (slot + 1) rest)
  | t, lead, slot, some c :: rest =>
    some (Content.plug separator fill c lead) ::
      behind t.fragments[slot]? rest (plugFrom separator fill t lead (slot + 1) rest)
  termination_by structural _ _ _ bindings => bindings

end

end Plug

namespace Content

variable {separator : String} {c : Tree ω}

theorem openSlots_leaf (hc : c.IsLeaf) (lead : String) : c.openSlots separator lead = [] := by
  cases c with
  | bound template bindings => exact absurd rfl (hc template bindings)
  | _ => rfl

theorem plug_leaf [Wrapping ω (Tree ω)] (hc : c.IsLeaf) (fill : String → Tree ω) (lead : String) :
    c.plug separator fill lead = c := by
  cases c with
  | bound template bindings => exact absurd rfl (hc template bindings)
  | _ => rfl

end Content

section NoOpenSlots

variable [Wrapping ω (Tree ω)] {separator : String} (fill : String → Tree ω)

theorem plugFrom_of_openSlots_nil (t : Template ω) (lead : String) :
    ∀ bindings : List (Option (Tree ω)),
      (∀ c, some c ∈ bindings → c.openSlots separator lead = [] →
        c.plug separator fill lead = c) →
      ∀ slot, openSlotsFrom separator t lead slot bindings = [] →
        plugFrom separator fill t lead slot bindings = bindings := by
  intro bindings
  induction bindings with
  | nil => exact fun _ slot _ => rfl
  | cons binding rest ih =>
    intro hbound slot hopen
    have hrest := ih (fun c hc => hbound c (List.mem_cons_of_mem _ hc)) (slot + 1)
    -- behind the last slot there is nothing open, and nothing is filled
    have htail (hnext : behind t.fragments[slot]? []
        (openSlotsFrom separator t lead (slot + 1) rest) = []) :
        behind t.fragments[slot]? rest (plugFrom separator fill t lead (slot + 1) rest) = rest := by
      cases hf : t.fragments[slot]? with
      | none => rfl
      | some f =>
        rw [hf] at hnext
        exact hrest hnext
    cases binding with
    | none =>
      obtain ⟨hhere, hnext⟩ := List.append_eq_nil_iff.1 hopen
      have hfree : plugSlot fill lead (t.nameAt slot) (t.wrapAt slot) = none := by
        cases hn : t.nameAt slot with
        | none => rfl
        | some name =>
          rw [hn] at hhere
          cases hhere
      rw [plugFrom, hfree, htail hnext]
    | some c =>
      obtain ⟨hhere, hnext⟩ := List.append_eq_nil_iff.1 hopen
      rw [plugFrom, hbound c List.mem_cons_self hhere, htail hnext]

/-- Content without open slots is not changed by filling them. -/
theorem Content.plug_of_openSlots_nil (c : Tree ω) : ∀ lead : String,
    c.openSlots separator lead = [] → c.plug separator fill lead = c := by
  induction c using Content.inductBound with
  | leaf c hc => exact fun lead _ => plug_leaf hc fill lead
  | bound t bindings ih =>
    intro lead hopen
    have hsame := plugFrom_of_openSlots_nil fill t (lead ++ t.name ++ separator) bindings
      (fun c hc => ih c hc _) 0 hopen
    rw [Content.plug, hsame]

end NoOpenSlots

/-! ### What fixation adds -/

/-- A fixation into `target` adds parts with the given holes; when the holes are filled, the parts
write what `writes` says. -/
def Fixation.Adds [Wrapping ω (Tree ω)] (target : Template ω) (x : Fixation ω)
    (holes : List (String × Option ω)) (writes : (String → Tree ω) → Written) : Prop :=
  ∀ t, x.1 = .ok t → t.WellFormed ∧ ∃ added, t.parts = target.parts ++ added ∧
    added.filterMap Part.hole? = holes ∧ ∀ fill, Part.writtenAll fill added = writes fill

namespace Fixation

variable [Wrapping ω (Tree ω)] {target : Template ω} {separator : String}

theorem adds_error (e : Failure ω) (runs : Runs) {holes : List (String × Option ω)}
    {writes : (String → Tree ω) → Written} : Adds target (.error e, runs) holes writes := nofun

theorem Adds.thenFragment {x : Fixation ω} {next : Template ω → Runs → Fixation ω}
    {holes holes' : List (String × Option ω)} {writes writes' : (String → Tree ω) → Written}
    (hx : x.Adds target holes writes)
    (hnext : ∀ target runs, target.WellFormed → (next target runs).Adds target holes' writes')
    (fragment : Option Bytes) :
    (x.thenFragment fragment next).Adds target (holes ++ behind fragment [] holes')
      (fun fill => (writes fill).thenFragment fragment (writes' fill)) := by
  cases fragment with
  | none =>
    rw [behind, List.append_nil]
    exact hx
  | some f =>
    obtain ⟨result, runs⟩ := x
    cases result with
    | error e => exact adds_error e runs
    | ok t =>
      intro t' ht'
      obtain ⟨hwf, added, hparts, hholes, hwrites⟩ := hx t rfl
      obtain ⟨hwf', added', hparts', hholes', hwrites'⟩ :=
        hnext (t.addStatic f) runs (hwf.addStatic f) t' ht'
      refine ⟨hwf', added ++ (Part.bytes f ++ added'), ?_, ?_, fun fill => ?_⟩
      · rw [hparts', hwf.parts_addStatic, hparts]
        simp only [List.append_assoc]
      · simp only [List.filterMap_append, Part.filterMap_hole?_bytes, hholes, hholes', behind,
          List.nil_append]
      · simp only [Part.writtenAll_append, Part.writtenAll_bytes, hwrites, hwrites',
          Written.thenFragment]

/-- Content that is emitted becomes static. -/
theorem adds_inline (h : target.WellFormed) (c : Tree ω) (runs : Runs) :
    (inline target c runs).Adds target [] (fun _ => Tree.written c) := by
  unfold inline
  have hrender := Tree.render_eq_ok_iff c runs
  generalize Tree.render c runs = rendered at hrender ⊢
  obtain ⟨result, runs'⟩ := rendered
  cases result with
  | error e => exact adds_error e runs'
  | ok data =>
    intro t ht
    cases ht
    refine ⟨h.addStatic data, Part.bytes data, h.parts_addStatic data, ?_, fun fill => ?_⟩
    · exact Part.filterMap_hole?_bytes data
    · rw [Part.writtenAll_bytes, (hrender data).1 rfl]

/-- A slot without content becomes a hole if it has a name. -/
theorem adds_carryOver (h : target.WellFormed) (lead : String) (name : Option String)
    (wrap : Option ω) (runs : Runs) :
    (carryOver target lead name wrap runs).Adds target (openSlot lead name wrap)
      (fun fill => slotWritten name (plugSlot fill lead name wrap)) := by
  cases name with
  | none =>
    intro t ht
    cases ht
    exact ⟨h, [], (List.append_nil _).symm, rfl, fun _ => rfl⟩
  | some name =>
    unfold carryOver
    dsimp only
    split
    · next t' ht' =>
      intro t ht
      cases ht
      refine ⟨h.addPlaceholder ht', _, h.parts_addPlaceholder ht', rfl, fun fill => ?_⟩
      exact Written.andThen_all_nil _
    · exact adds_error _ runs

theorem adds_fixateSlots_of (t : Template ω) (lead : String) :
    ∀ bindings : List (Option (Tree ω)),
      (∀ c, some c ∈ bindings → ∀ (target : Template ω) (runs : Runs), target.WellFormed →
        (fixateContent separator c lead target runs).Adds target (c.openSlots separator lead)
          (fun fill => Tree.written (c.plug separator fill lead))) →
      ∀ (slot : Nat) (target : Template ω) (runs : Runs), target.WellFormed →
        (fixateSlots separator t lead slot bindings target runs).Adds target
          (openSlotsFrom separator t lead slot bindings)
          (fun fill => slotsWritten t slot (plugFrom separator fill t lead slot bindings)) := by
  intro bindings
  induction bindings with
  | nil => exact fun _ slot target runs _ => adds_error _ runs
  | cons binding rest ih =>
    intro hbound slot target runs h
    have hnext := ih (fun c hc => hbound c (List.mem_cons_of_mem _ hc)) (slot + 1)
    -- behind the last slot no binding is looked at
    have hskip (fill : String → Tree ω) (w : Written) :
        w.thenFragment t.fragments[slot]? (slotsWritten t (slot + 1)
          (behind t.fragments[slot]? rest (plugFrom separator fill t lead (slot + 1) rest))) =
        w.thenFragment t.fragments[slot]?
          (slotsWritten t (slot + 1) (plugFrom separator fill t lead (slot + 1) rest)) := by
      cases t.fragments[slot]? <;> rfl
    cases binding with
    | none =>
      have hadds := (adds_carryOver h lead (t.nameAt slot) (t.wrapAt slot) runs).thenFragment
        hnext t.fragments[slot]?
      simp only [plugFrom, slotsWritten, hskip]
      exact hadds
    | some c =>
      have hadds := (hbound c List.mem_cons_self target runs h).thenFragment hnext
        t.fragments[slot]?
      simp only [plugFrom, slotsWritten, hskip]
      exact hadds

/-- **Fixation adds the parts of a tree**: its open slots as holes, and in between the bytes that
the tree writes. -/
theorem adds_fixateContent (c : Tree ω) :
    ∀ (lead : String) (target : Template ω) (runs : Runs), target.WellFormed →
      (fixateContent separator c lead target runs).Adds target (c.openSlots separator lead)
        (fun fill => Tree.written (c.plug separator fill lead)) := by
  induction c using Content.inductBound with
  | leaf c hc =>
    intro lead target runs h
    rw [fixateContent_leaf hc, Content.openSlots_leaf hc]
    simp only [Content.plug_leaf hc]
    exact adds_inline h c runs
  | bound t bindings ih =>
    intro lead target runs h
    simp only [Content.plug, Tree.written_bound]
    exact adds_fixateSlots_of t (lead ++ t.name ++ separator) bindings (fun c hc => ih c hc _) 0
      target runs h

end Fixation

/-! ### Bound templates -/

namespace Bound

/-- The open slots of a bound template; its own name comes before none of theirs. -/
def openSlots (b : Bound ω (Tree ω)) (separator : String) : List (String × Option ω) :=
  openSlotsFrom separator b.template "" 0 b.bindings

variable [Wrapping ω (Tree ω)]

/-- The bound template with its open slots filled. -/
def plug (b : Bound ω (Tree ω)) (separator : String) (fill : String → Tree ω) :
    Bound ω (Tree ω) :=
  { b with bindings := plugFrom separator fill b.template "" 0 b.bindings }

variable {b : Bound ω (Tree ω)} {separator : String}

theorem plug_of_openSlots_nil (hopen : b.openSlots separator = []) (fill : String → Tree ω) :
    b.plug separator fill = b := by
  have hsame := plugFrom_of_openSlots_nil fill b.template "" b.bindings
    (fun c _ => Content.plug_of_openSlots_nil fill c "") 0 hopen
  rw [plug, hsame]

/-- The new template has the open slots as its holes, and writes what the tree does. -/
theorem parts_of_fixate {runs : Runs} {t : Template ω}
    (ht : (b.fixate separator runs).1 = .ok (some t)) :
    t.WellFormed ∧ t.holes = b.openSlots separator ∧
      ∀ fill, Part.writtenAll fill t.parts = Tree.written (b.plug separator fill).toContent := by
  obtain ⟨hwf, added, hparts, hholes, hwrites⟩ := Fixation.adds_fixateSlots_of b.template ""
    b.bindings (fun c _ => Fixation.adds_fixateContent c "") 0 (.blank b.template.name) runs
    (Template.wellFormed_blank _) t (fixateSlots_of_fixate ht)
  rw [Template.parts_blank, List.nil_append] at hparts
  refine ⟨hwf, ?_, fun fill => ?_⟩
  · rw [Template.holes_eq_filterMap_parts, hparts]
    exact hholes
  · rw [hparts, hwrites]
    exact (Tree.written_bound _ _).symm

/-- **A fixated template stands for the tree it was made of.**  Its named slots are the open slots
of the tree.  With content bound to all its names, in any order, it writes what the tree writes when
the same content fills the open slots.  If there are none, it is static, and what it holds is what
the tree renders to. -/
theorem fixate_refines {runs : Runs} {t : Template ω}
    (ht : (b.fixate separator runs).1 = .ok (some t)) :
    t.holes = b.openSlots separator ∧
    (∀ (fill : String → Tree ω) (names : List String), (∀ n, n ∈ names ↔ n ∈ t.names) →
      (bindEach fill names (fresh t)).2 = .ok () ∧
        Tree.written (bindEach fill names (fresh t)).1.toContent =
          Tree.written (b.plug separator fill).toContent) ∧
    (b.openSlots separator = [] → t.isStatic = true ∧
      ∃ data, t.staticBytes = .ok (some data) ∧ ∀ runs, (b.render runs).1 = .ok data) := by
  obtain ⟨hwf, hholes, hwrites⟩ := parts_of_fixate ht
  refine ⟨hholes, ?_, ?_⟩
  · intro fill names hnames
    obtain ⟨hok, hwritten⟩ := written_bindEach hwf hnames fill
    exact ⟨hok, hwritten.trans (hwrites fill)⟩
  · intro hopen
    have hstatic : t.isStatic = true := hwf.isStatic_iff_holes.2 (hholes.trans hopen)
    refine ⟨hstatic, t.fragments.flatten, ?_, fun runs => ?_⟩
    · rw [hwf.staticBytes, if_pos hstatic]
    -- no hole is left, so any content fills them
    · have hall := hwrites (fun _ => .empty)
      rw [hwf.parts_of_isStatic hstatic, Part.writtenAll_bytes, plug_of_openSlots_nil hopen] at hall
      exact (Tree.render_eq_ok_iff _ runs _).2 hall.symm

/-- A template with one placeholder, bound in another one beside a placeholder that has a wrap. -/
def nested : Bound (Wrap Empty) (Tree (Wrap Empty)) :=
  ⟨(((Template.blank "outer").nameLast "x" none).addStatic [45]).nameLast "y"
      (some (.brackets [40] [41])),
    [some (.bound (((Template.blank "inner").addStatic [97]).nameLast "z" none) [none, none]),
      none]⟩

theorem fixate_refines_nested : ∃ t : Template (Wrap Empty),
    (nested.fixate ":" []).1 = .ok (some t) ∧
      t.holes = [("inner:z", none), ("y", some (.brackets [40] [41]))] ∧
      Tree.written (bindEach (fun _ => .data [122]) t.names (fresh t)).1.toContent =
        .all [97, 122, 45, 40, 122, 41] := by
  obtain ⟨t, ht⟩ : ∃ t, (nested.fixate ":" []).1 = .ok (some t) := ⟨_, rfl⟩
  obtain ⟨hholes, hwrites, -⟩ := fixate_refines ht
  refine ⟨t, ht, hholes, ?_⟩
  rw [(hwrites _ t.names fun _ => Iff.rfl).2]
  decide

end Bound
end Stencil
