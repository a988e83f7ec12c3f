import Stencil.Proofs.Bound.Evaluation
import Stencil.Proofs.Content.References
import Stencil.Proofs.Template.Produced
import Stencil.Workspace

/-!
# The same content everywhere

All placeholders of a template can be filled with the same content in three ways: slot by slot, name
by name, and by fixation to static bytes.  The names at the slots and the slots of the names fit
together, so the first two bind the same; and a tree that is written whole is fixated to just what
it writes.  So all three give the same bytes.

## Main results

* `Bound.staticBytes_of_whole` — the static bytes of a tree are what it writes.
* `Workspace.whole_filled` — a template filled with content that is written whole is written whole.
* `Workspace.staticWith_eq_render` — the three ways give the same bytes.
-/

namespace Stencil

/-! ### Fixation to static bytes -/

section Static

variable {ω : Type} {b : Bound ω (Tree ω)}

/-- What is written whole is rendered. -/
theorem Bound.render_of_whole (hwhole : (Tree.written b.toContent).whole = true) (runs : Runs) :
    (b.render runs).1 = .ok (Tree.written b.toContent).bytes :=
  (Tree.render_eq_ok_iff _ runs _).2 (Written.eq_all_iff.2 ⟨hwhole, rfl⟩)

/-- What is written whole is fixated to static bytes. -/
theorem Bound.staticBytes_of_whole (hwhole : (Tree.written b.toContent).whole = true)
    (hplaceholders : b.template.isStatic = false) (runs : Runs) :
    (b.staticBytes runs).1 = .ok (some (Tree.written b.toContent).bytes) := by
  -- no hole is left to fill, so the wraps play no part
  let _ : Wrapping ω (Tree ω) := ⟨fun _ c => c⟩
  obtain ⟨hfixable, hopen⟩ := (b.whole_iff nestingSeparator).1 hwhole
  obtain ⟨t, ht⟩ := Bound.exists_fixate hfixable hplaceholders nestingSeparator runs
  obtain ⟨hwf, hholes, hwrites⟩ := Bound.parts_of_fixate (congrArg Prod.fst ht)
  have hstatic : t.isStatic = true := hwf.isStatic_iff_holes.2 (hholes.trans hopen)
  have hall := hwrites fun _ => .empty
  rw [hwf.parts_of_isStatic hstatic, Part.writtenAll_bytes, Bound.plug_of_openSlots_nil hopen]
    at hall
  rw [Bound.staticBytes, ht, ← hall]
  dsimp only
  rw [Template.staticBytesOrFail, hwf.staticBytes, if_pos hstatic]
  rfl

/-- A template without placeholders writes its static bytes if nothing is bound to it. -/
theorem Template.WellFormed.written_of_isStatic {t : Template ω} (h : t.WellFormed)
    (hstatic : t.isStatic = true) {bindings : List (Option (Tree ω))}
    (hnone : ∀ s, s ≤ t.fragments.length → bindings[s]? = some none) :
    Tree.written (.bound t bindings) = .all t.fragments.flatten := by
  let _ : Wrapping ω (Tree ω) := ⟨fun _ c => c⟩
  have hfilling (s : Nat) (hs : s ≤ t.fragments.length) :
      bindings[s]? = some (t.filling (fun _ => .empty) s) := by
    rw [hnone s hs, Template.filling, h.isStatic_iff_nameAt.1 hstatic s]
    rfl
  rw [Template.written_filled (fun _ => .empty) t hfilling, h.parts_of_isStatic hstatic,
    Part.writtenAll_bytes]

end Static

/-! ### Filling a template -/

namespace Workspace

open Stencil.Bound

variable {w : Workspace} {t : SharedTemplate} {c : SharedContent}

/-- What a slot of a filled template holds, with the bound templates that it refers to. -/
theorem getElem?_boundTree_filled (w : Workspace) (t : SharedTemplate) (c : SharedContent) {s : Nat}
    (hs : s ≤ t.fragments.length) : (w.boundTree (filled t fun _ => c)).bindings[s]? =
      some ((t.nameAt s).map fun _ => w.tree (Wrapping.under (t.wrapAt s) c)) := by
  have hslot := getElem?_filled t (fun _ => c) hs
  rw [boundTree, Bound.expand, expandBindings_eq_map, List.getElem?_map, hslot, Option.map_some,
    Template.holding, Option.map_map]
  rfl

/-- A template filled with content that is written whole is written whole. -/
theorem whole_filled (hc : ∀ s, (t.nameAt s).isSome →
      (Tree.written (w.tree (Wrapping.under (t.wrapAt s) c))).whole = true) :
    (Tree.written (w.boundTree (filled t fun _ => c)).toContent).whole = true := by
  have hweave := slotsWritten_eq_weave t t.fragments 0 (w.boundTree (filled t fun _ => c)).bindings
    rfl fun i hi => by
      rw [Nat.zero_add]
      exact getElem?_boundTree_filled w t c hi
  have hwritten : Tree.written (w.boundTree (filled t fun _ => c)).toContent =
      slotsWritten t 0 (w.boundTree (filled t fun _ => c)).bindings := Tree.written_bound _ _
  rw [hwritten, hweave, Written.whole_weave]
  intro i _
  cases hname : t.nameAt (0 + i) with
  | none => rfl
  | some name => exact hc (0 + i) (by rw [hname]; rfl)

/-- A template without placeholders has nothing to fill. -/
theorem written_filled_of_isStatic (ht : t.WellFormed) (hstatic : t.isStatic = true) :
    Tree.written (w.boundTree (filled t fun _ => c)).toContent = .all t.fragments.flatten := by
  refine ht.written_of_isStatic hstatic fun s hs => ?_
  rw [getElem?_boundTree_filled w t c hs, ht.isStatic_iff_nameAt.1 hstatic s]
  rfl

/-- **Three ways to fill a template give the same bytes.**  Let content, under the wrap of every
named slot of a template, be written whole.  Then the static bytes of the template with it, its
rendering with the content bound slot by slot, and that with the content bound name by name are all
there, and are the same.  Without placeholders they are the template's own static bytes. -/
theorem staticWith_eq_render (h : t.IsProduced) (hc : ∀ s, (t.nameAt s).isSome →
      (Tree.written (w.tree (Wrapping.under (t.wrapAt s) c))).whole = true) :
    ∃ data, (w.staticWith t c).2 = .ok (some data) ∧
      (w.render (ofContent t c)).2 = .ok data ∧
      (bindNames c t.names (fresh t)).2 = .ok () ∧
      (w.render (bindNames c t.names (fresh t)).1).2 = .ok data ∧
      (t.isStatic = true → t.staticBytes = .ok (some data)) := by
  have hwf := h.isBuilt.wellFormed
  have hwhole := whole_filled hc
  have hrender := render_of_whole hwhole w.runs
  refine ⟨(Tree.written (w.boundTree (filled t fun _ => c)).toContent).bytes, ?_, ?_, ?_, ?_, ?_⟩
  · rw [staticWith, ofContent_eq]
    cases hstatic : t.isStatic with
    | false => exact staticBytes_of_whole hwhole hstatic w.runs
    | true =>
      have hstatic' : (w.boundTree (filled t fun _ => c)).template.isStatic = true := hstatic
      rw [written_filled_of_isStatic hwf hstatic, afterRuns, Bound.staticBytes, Bound.fixate,
        if_pos hstatic']
      show (t.staticBytesOrFail w.runs).1 = _
      rw [Template.staticBytesOrFail, hwf.staticBytes, if_pos hstatic]
      rfl
  · rw [ofContent_eq]
    exact hrender
  · rw [bindNames_fresh hwf]
  · rw [bindNames_fresh hwf]
    exact hrender
  · intro hstatic
    rw [written_filled_of_isStatic hwf hstatic, hwf.staticBytes, if_pos hstatic]
    rfl

/-- A template with a name at two slots, one of them with a wrap, and another name between them. -/
def twice : SharedTemplate :=
  (Template.blank "t").edits [.addPlaceholder "x" (some .html), .addStatic [45],
    .addPlaceholder "y" none, .addPlaceholder "x" none]

/-- A workspace in which content can refer to a template with `<` bound in it. -/
def one : Workspace :=
  { empty with
    templates := #[(Template.blank "s").edits [.addPlaceholder "z" none]]
    bounds := #[(⟨0⟩, [some (.data [60])])] }

theorem staticWith_eq_render_twice :
    (one.staticWith twice (.shared ⟨0⟩)).2 = .ok (some (Utf8.encode "&lt;-<<".toList)) ∧
      (one.render (ofContent twice (.shared ⟨0⟩))).2 = .ok (Utf8.encode "&lt;-<<".toList) ∧
      (one.render (bindNames (.shared ⟨0⟩) twice.names (fresh twice)).1).2 =
        .ok (Utf8.encode "&lt;-<<".toList) := by
  have hwhole : ∀ s, (twice.nameAt s).isSome → (Tree.written (one.tree
      (Wrapping.under (twice.wrapAt s) (.shared ⟨0⟩)))).whole = true := by
    intro s hs
    have hlen : twice.fragments.length = 2 := by decide +kernel
    have hle : s ≤ twice.fragments.length := ((Template.wellFormed_blank "t").edits _).inRange s hs
    rcases s with _ | _ | _ | s
    · decide +kernel
    · decide +kernel
    · decide +kernel
    · omega
  obtain ⟨data, hstatic, hslots, -, hnames, -⟩ :=
    staticWith_eq_render (t := twice) (.edits _ (.blank "t")) hwhole
  have hdata : (one.staticWith twice (.shared ⟨0⟩)).2 =
      .ok (some (Utf8.encode "&lt;-<<".toList)) := by rfl
  obtain rfl : data = Utf8.encode "&lt;-<<".toList := by
    rw [hdata] at hstatic
    simpa using hstatic.symm
  exact ⟨hstatic, hslots, hnames⟩

end Workspace
end Stencil
