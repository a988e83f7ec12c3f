import Stencil.Proofs.Bound.Keeps
import Stencil.Proofs.Template.Produced
import Stencil.Proofs.Template.Rename

/-!
# Fixation of what is not bound

A template to which nothing is bound is fixated to a copy of itself.  It is built anew, and by
building alone not every template can be made; but no edit leaves an empty fragment without a
placeholder before it, and the other slots without a name are before the first fragment and behind
the last.  So the calls that fixation makes put every fragment and every placeholder where it was.

## Main definitions

* `Template.IsTight` — every empty fragment has a placeholder before it.
* `Template.Copies` — a template has the beginning of another one.

## Main results

* `Template.IsBuilt.isTight` — edits only build such templates.
* `Template.Copies.fixateSlots` — fixation copies slot by slot.
* `Bound.fixate_fresh` — a template with nothing bound is fixated to a copy of itself.
-/

namespace Stencil

variable {ω : Type}

namespace Template

variable {t t' target : Template ω}

/-! ### Empty fragments -/

/-- Every empty fragment has a placeholder before it. -/
def IsTight (t : Template ω) : Prop := ∀ s, t.fragments[s]? = some [] → (t.nameAt s).isSome

/-- Bytes added to the last fragment leave no more fragments empty. -/
theorem getElem?_appendToLast {data : Bytes} (hdata : data ≠ []) :
    ∀ {fragments : List Bytes} {s : Nat}, (appendToLast data fragments)[s]? = some [] →
      fragments[s]? = some [] := by
  intro fragments
  induction fragments with
  | nil =>
    intro s hs
    cases s with
    | zero => exact absurd (Option.some.inj hs) hdata
    | succ s => cases hs
  | cons f rest ih =>
    intro s hs
    cases rest with
    | nil =>
      cases s with
      | zero => exact absurd (List.append_eq_nil_iff.1 (Option.some.inj hs)).2 hdata
      | succ s => cases hs
    | cons g rest =>
      cases s with
      | zero => exact hs
      | succ s => exact ih hs

/-- Templates stay tight if their fragments stay, and no slot loses its name. -/
theorem IsTight.congr (h : t.IsTight) (hfragments : t'.fragments = t.fragments)
    (hnames : ∀ s, (t.nameAt s).isSome → (t'.nameAt s).isSome) : t'.IsTight :=
  fun s hs => hnames s (h s (hfragments ▸ hs))

theorem IsTight.addStatic (h : t.IsTight) (data : Bytes) : (t.addStatic data).IsTight := by
  intro s hs
  rw [nameAt_addStatic]
  by_cases hend : t.endsNamed
  · rw [fragments_addStatic_of_endsNamed hend, List.getElem?_append] at hs
    split at hs
    · exact h s hs
    · -- the new fragment comes behind a placeholder
      obtain rfl : s = t.fragments.length := by
        have hlt := (List.getElem?_eq_some_iff.1 hs).1
        rw [List.length_singleton] at hlt
        omega
      exact hend
  · rw [fragments_addStatic_of_not_endsNamed hend] at hs
    split at hs
    · exact h s hs
    · next hdata => exact h s (getElem?_appendToLast (fun he => hdata (List.isEmpty_iff.2 he)) hs)

theorem IsTight.nameLast (h : t.IsTight) (hwf : t.WellFormed) (hend : ¬ t.endsNamed)
    (name : String) (wrap : Option ω) : (t.nameLast name wrap).IsTight := by
  refine h.congr (fragments_nameLast t name wrap) fun s hs => ?_
  rw [nameAt_nameLast (hwf.length_slotNames_le hend)]
  split
  · rfl
  · exact hs

theorem IsTight.addPlaceholder (h : t.IsTight) (hwf : t.WellFormed) {name : String}
    {wrap : Option ω} (ht : t.addPlaceholder name wrap = .ok t') : t'.IsTight := by
  obtain ⟨-, rfl⟩ := addPlaceholder_eq_ok_iff.1 ht
  have hroom : t.withRoom.IsTight := by
    unfold withRoom
    split
    · exact h.addStatic []
    · exact h
  exact hroom.nameLast hwf.withRoom hwf.not_endsNamed_withRoom name wrap

theorem IsTight.edit (h : t.IsTight) (hwf : t.WellFormed) (e : Edit ω) : (t.edit e).1.IsTight := by
  cases e with
  | addStatic data => exact h.addStatic data
  | addText text encoding =>
    rw [Template.edit, addText]
    cases encoding.encode text with
    | ok data => exact h.addStatic data
    | error f => exact h
  | addPlaceholder name wrap => exact orKept_keeps h fun _ => h.addPlaceholder hwf
  | setWrap name wrap =>
    rw [Template.edit]
    split
    · next t' ht' =>
      obtain ⟨slots, -, rfl⟩ := Option.map_eq_some_iff.1 ht'
      exact h
    · rw [hwf.dropEmptied_eq]
      exact h
  | rename current new merge =>
    refine orKept_keeps h fun t' ht' => h.congr (fragments_rename ht') fun s hs => ?_
    rw [nameAt_rename ht']
    split
    · rfl
    · exact hs
  | transform f merge =>
    refine orKept_keeps h fun t' ht' => ?_
    obtain ⟨-, -, rfl⟩ := hwf.transform_eq_ok_iff.1 ht'
    refine h.congr rfl fun s hs => ?_
    rwa [nameAt_renamed, Option.isSome_map]

/-- Edits only build templates in which every empty fragment has a placeholder before it. -/
theorem IsBuilt.isTight (h : t.IsBuilt) : t.IsTight := by
  have hedits (es : List (Edit ω)) :
      ∀ {t : Template ω}, t.WellFormed → t.IsTight → (t.edits es).IsTight := by
    induction es with
    | nil => exact fun _ h => h
    | cons e es ih => exact fun hwf h => ih (hwf.edit e) (h.edit hwf e)
  obtain ⟨name, es, rfl⟩ := h
  exact hedits es (wellFormed_blank name) fun s hs => by cases hs

/-! ### Copying slot by slot -/

/-- The template `target` has the first `m` fragments of `t` and what is at its first `n` slots, and
nothing else. -/
structure Copies (t target : Template ω) (m n : Nat) : Prop where
  /-- It is well-formed. -/
  wellFormed : target.WellFormed
  /-- Its name is that of the template. -/
  name : target.name = t.name
  /-- It has the first fragments. -/
  fragments : target.fragments = t.fragments.take m
  /-- It has the first names. -/
  nameAt : ∀ s, target.nameAt s = if s < n then t.nameAt s else none
  /-- It has their wraps. -/
  wrapAt : ∀ s, target.wrapAt s = if s < n then t.wrapAt s else none

namespace Copies

variable {n : Nat}

theorem blank (t : Template ω) : Copies t (.blank t.name) 0 0 where
  wellFormed := wellFormed_blank t.name
  name := rfl
  fragments := rfl
  nameAt _ := rfl
  wrapAt _ := rfl

/-- The placeholder of the next slot is carried over, if there is one. -/
theorem carryOver (h : Copies t target n n) (ht : t.WellFormed) (hn : n ≤ t.fragments.length)
    (hname : t.nameAt n ≠ some "") (runs : Runs) :
    ∃ target', Stencil.carryOver target "" (t.nameAt n) (t.wrapAt n) runs = (.ok target', runs) ∧
      Copies t target' n (n + 1) := by
  have hsucc {α : Type} (at_ : Nat → Option α) (s : Nat) :
      (if s < n + 1 then at_ s else none) =
        if s = n then at_ n else if s < n then at_ s else none := by
    by_cases hs : s = n
    · rw [hs, if_pos (Nat.lt_succ_self n), if_pos rfl]
    · have hiff : s < n + 1 ↔ s < n := by omega
      simp only [hiff, if_neg hs]
  have hsame {α : Type} {at_ : Nat → Option α} (hnone : at_ n = none) (s : Nat) :
      (if s < n then at_ s else none) = if s < n + 1 then at_ s else none := by
    rw [hsucc, hnone]
    by_cases hs : s = n
    · rw [if_pos hs, if_neg (by omega)]
    · rw [if_neg hs]
  cases hat : t.nameAt n with
  | none =>
    -- a slot without a name has no wrap either, so nothing is missing
    have hwrap := ht.wrapAt_eq_none hat
    refine ⟨target, rfl, h.wellFormed, h.name, h.fragments, fun s => ?_, fun s => ?_⟩
    · rw [h.nameAt, hsame hat]
    · rw [h.wrapAt, hsame hwrap]
  | some name =>
    have hlen : target.fragments.length = n := by
      rw [h.fragments, List.length_take, Nat.min_eq_left hn]
    have hfree : target.nameAt target.fragments.length = none := by
      rw [hlen, h.nameAt, if_neg (Nat.lt_irrefl n)]
    have hend : ¬ target.endsNamed := by
      rw [endsNamed, hfree]
      exact Bool.false_ne_true
    have hadd : target.addPlaceholder name (t.wrapAt n) =
        .ok (target.nameLast name (t.wrapAt n)) := by
      refine addPlaceholder_eq_ok_iff.2 ⟨fun he => hname (hat.trans (congrArg some he)), ?_⟩
      rw [withRoom, if_neg hend]
    refine ⟨target.nameLast name (t.wrapAt n), ?_, h.wellFormed.nameLast hend _ _, h.name,
      h.fragments, fun s => ?_, fun s => ?_⟩
    · rw [Stencil.carryOver, String.empty_append, hadd]
    · rw [nameAt_nameLast (h.wellFormed.length_slotNames_le hend), hlen, h.nameAt, hsucc, hat]
    · rw [wrapAt_nameLast _ _ (h.wellFormed.wrapAt_eq_none hfree), hlen, h.wrapAt, hsucc]

/-- The next fragment does not join the one before. -/
theorem addStatic (h : Copies t target n (n + 1)) (ht : t.WellFormed) (htight : t.IsTight)
    {f : Bytes} (hf : t.fragments[n]? = some f) :
    Copies t (target.addStatic f) (n + 1) (n + 1) := by
  obtain ⟨hlt, hget⟩ := List.getElem?_eq_some_iff.1 hf
  have hlen : target.fragments.length = n := by
    rw [h.fragments, List.length_take, Nat.min_eq_left (Nat.le_of_lt hlt)]
  have hlast : target.endsNamed = (t.nameAt n).isSome := by
    rw [endsNamed, hlen, h.nameAt, if_pos (Nat.lt_succ_self n)]
  have hnext : t.fragments.take (n + 1) = t.fragments.take n ++ [f] := by
    rw [List.take_add_one, hf]
    rfl
  refine ⟨h.wellFormed.addStatic f, (name_addStatic target f).trans h.name, ?_, fun s => ?_,
    fun s => ?_⟩
  · by_cases hend : target.endsNamed
    · rw [fragments_addStatic_of_endsNamed hend, h.fragments, hnext]
    · -- only the first slot may be without a name before a fragment, and that is not empty then
      have hnot : ¬ (t.nameAt n).isSome := hlast ▸ hend
      obtain rfl : n = 0 := by
        by_contra hne
        exact hnot (ht.interior n (Nat.pos_of_ne_zero hne) hlt)
      have hf' : f ≠ [] := fun he => hnot (htight 0 (he ▸ hf))
      rw [fragments_addStatic_of_not_endsNamed hend, if_neg (fun he => hf' (List.isEmpty_iff.1 he)),
        h.fragments, hnext, List.take_zero, appendToLast, List.nil_append]
  · rw [nameAt_addStatic, h.nameAt]
  · rw [wrapAt_addStatic, h.wrapAt]

/-- **Fixation copies slot by slot** where nothing is bound. -/
theorem fixateSlots (ht : t.WellFormed) (htight : t.IsTight) (hnames : ∀ s, t.nameAt s ≠ some "")
    (separator : String) (runs : Runs) (left : Nat) :
    ∀ {target : Template ω} {n : Nat}, n + left = t.fragments.length → Copies t target n n →
      ∃ target', Stencil.fixateSlots separator t "" n (List.replicate (left + 1) none) target runs =
        (.ok target', runs) ∧ Copies t target' t.fragments.length t.slotCount := by
  induction left with
  | zero =>
    intro target n hn h
    have hnone : t.fragments[n]? = none := List.getElem?_eq_none (by omega)
    obtain ⟨target', hrun, h'⟩ := h.carryOver ht (by omega) (hnames n) runs
    obtain rfl : n = t.fragments.length := by omega
    refine ⟨target', ?_, h'⟩
    rw [List.replicate_succ, Stencil.fixateSlots, hrun, hnone]
    rfl
  | succ left ih =>
    intro target n hn h
    obtain ⟨target₁, hrun, h₁⟩ := h.carryOver ht (by omega) (hnames n) runs
    obtain ⟨f, hf⟩ : ∃ f, t.fragments[n]? = some f := ⟨_, List.getElem?_eq_getElem (by omega)⟩
    obtain ⟨target', hrest, h'⟩ := ih (by omega) (h₁.addStatic ht htight hf)
    refine ⟨target', ?_, h'⟩
    rw [List.replicate_succ, Stencil.fixateSlots, hrun, hf]
    exact hrest

/-- A template that has all fragments and slots of another one is a copy of it. -/
theorem whole (h : Copies t target t.fragments.length t.slotCount) (ht : t.WellFormed) :
    target.fragments = t.fragments ∧ (∀ s, target.nameAt s = t.nameAt s) ∧
      (∀ n, target.slots? n = t.slots? n) ∧ ∀ s, target.wrapAt s = t.wrapAt s := by
  have hname (s : Nat) : target.nameAt s = t.nameAt s := by
    rw [h.nameAt]
    split
    · rfl
    · next hs => exact (ht.nameAt_eq_none (Nat.lt_of_succ_le (Nat.le_of_not_lt hs))).symm
  refine ⟨by rw [h.fragments, List.take_length], hname, fun n => ?_, fun s => ?_⟩
  · exact ht.slots?_congr h.wellFormed fun s => by rw [hname]
  · rw [h.wrapAt]
    split
    · rfl
    · next hs =>
      have hfree := ht.nameAt_eq_none (Nat.lt_of_succ_le (Nat.le_of_not_lt hs))
      exact (ht.wrapAt_eq_none hfree).symm

end Copies
end Template

/-! ### Templates with nothing bound -/

namespace Bound

variable {t : Template ω}

/-- **A template with nothing bound is fixated to a copy of itself**: with the same fragments, the
empty ones too, the same name and wrap at every slot, and the same slots of every name. -/
theorem fixate_fresh (h : t.IsProduced) (hplaceholders : t.isStatic = false)
    (hnames : ∀ n ∈ t.names, n ≠ "") (separator : String) (runs : Runs) :
    ∃ t', (fresh t : Bound ω (Tree ω)).fixate separator runs = (.ok (some t'), runs) ∧
      t'.name = t.name ∧ t'.fragments = t.fragments ∧ (∀ s, t'.nameAt s = t.nameAt s) ∧
      (∀ n, t'.slots? n = t.slots? n) ∧ ∀ s, t'.wrapAt s = t.wrapAt s := by
  have hwf := h.isBuilt.wellFormed
  obtain ⟨t', hrun, hcopy⟩ := Template.Copies.fixateSlots hwf h.isBuilt.isTight
    (hwf.nameAt_ne_empty hnames) separator runs t.fragments.length (Nat.zero_add _) (.blank t)
  refine ⟨t', ?_, hcopy.name, hcopy.whole hwf⟩
  have hrun' : fixateSlots separator t "" 0 (fresh t : Bound ω (Tree ω)).bindings (.blank t.name)
      runs = (.ok t', runs) := hrun
  rw [fixate, show (fresh t : Bound ω (Tree ω)).template = t from rfl, hplaceholders, hrun']
  rfl

/-- A template in which two placeholders, one of them with a wrap, became one. -/
def merged : Template (Wrap Empty) :=
  (Template.blank "t").edits [.addPlaceholder "x" (some (.brackets [40] [41])),
    .addPlaceholder "y" none, .addStatic [97], .addPlaceholder "z" none, .rename "x" "y" true]

theorem fixate_fresh_merged : ∃ t',
    (fresh merged : Bound (Wrap Empty) (Tree (Wrap Empty))).fixate ":" [] = (.ok (some t'), []) ∧
      t'.fragments = [[], [97]] ∧ t'.slots? "y" = some [0, 1] ∧ t'.nameAt 2 = some "z" ∧
      t'.wrapAt 0 = some (.brackets [40] [41]) := by
  obtain ⟨t', hrun, -, hfragments, hnameAt, hslots, hwrapAt⟩ := fixate_fresh (t := merged)
    (.edits _ (.blank "t")) rfl (by decide +kernel) ":" []
  exact ⟨t', hrun, hfragments.trans (by decide +kernel), (hslots "y").trans (by decide +kernel),
    (hnameAt 2).trans (by decide +kernel), hwrapAt 0⟩

end Bound
end Stencil
