import Mathlib.Data.List.Infix
import Stencil.Text.Cut

/-!
# Marks between texts

Texts that are joined by a mark can be told apart again if the mark occurs in none of them and does
not overlap itself.  For a mark that begins as it ends may also occur across the end of a text and
the mark behind it.

## Main definitions

* `Text.FirstCut` — where a mark occurs first.
* `Text.Borderless` — a mark that does not overlap itself.

## Main results

* `Text.cut?_eq_some_iff` — a text is cut at the first mark.
* `Text.cut?_append` — the first mark is the one behind the first text.
* `Text.intercalate_injective` — joined texts can be told apart.
* `Text.exists_joined_of_border` — they cannot if the mark overlaps itself.
-/

namespace Stencil.Text

variable {mark : List Char}

theorem cut?_isSome_iff (mark s : List Char) : (cut? mark s).isSome = true ↔ mark <:+: s := by
  induction s with
  | nil => simp [cut?, List.isEmpty_iff, apply_ite Option.isSome]
  | cons c s ih =>
    rw [cut?, List.infix_cons_iff, ← ih]
    split
    · next h => simp [List.isPrefixOf_iff_prefix.1 h]
    · next h => simp [mt List.isPrefixOf_iff_prefix.2 h]

theorem cut?_eq_none_iff {mark s : List Char} : cut? mark s = none ↔ ¬ mark <:+: s := by
  rw [← cut?_isSome_iff, Bool.not_eq_true, Option.isSome_eq_false_iff, Option.isNone_iff_eq_none]

theorem occurs_iff {mark s : List Char} : occurs mark s = true ↔ mark <:+: s :=
  cut?_isSome_iff mark s

/-! ### The first mark -/

/-- The text before the first mark and the text behind it. -/
structure FirstCut (mark s before after : List Char) : Prop where
  /-- The mark is between them. -/
  eq : s = before ++ mark ++ after
  /-- No mark begins earlier. -/
  le : ∀ b a, s = b ++ mark ++ a → before.length ≤ b.length

theorem firstCut_of_cut? {s before after : List Char} (h : cut? mark s = some (before, after)) :
    FirstCut mark s before after := by
  refine ⟨cut?_eq_some h, ?_⟩
  induction s generalizing before with
  | nil =>
    intro b a _
    have hnil := congrArg List.length (cut?_eq_some h)
    simp only [List.length_append, List.length_nil] at hnil
    omega
  | cons c s ih =>
    rw [cut?] at h
    split at h
    · cases h
      exact fun b a _ => Nat.zero_le _
    · next hstart =>
      obtain ⟨⟨before', after'⟩, hcut, heq⟩ := Option.map_eq_some_iff.1 h
      cases heq
      intro b a hs
      cases b with
      | nil =>
        -- a mark that begins in front would be found there
        have hprefix : mark <+: c :: s := ⟨a, hs.symm⟩
        exact absurd (List.isPrefixOf_iff_prefix.2 hprefix) hstart
      | cons d b => exact Nat.succ_le_succ (ih hcut b a (List.cons.inj hs).2)

namespace FirstCut

variable {s before after before' after' : List Char}

/-- There is one first mark. -/
theorem unique (h : FirstCut mark s before after) (h' : FirstCut mark s before' after') :
    before = before' ∧ after = after' := by
  have hlen : before.length = before'.length :=
    Nat.le_antisymm (h.le _ _ h'.eq) (h'.le _ _ h.eq)
  have heq := h.eq.symm.trans h'.eq
  rw [List.append_assoc, List.append_assoc] at heq
  obtain ⟨rfl, hrest⟩ := List.append_inj heq hlen
  exact ⟨rfl, List.append_cancel_left hrest⟩

/-- What is before the first mark has no mark in it. -/
theorem free_before (hne : mark ≠ []) (h : FirstCut mark s before after) : ¬ mark <:+: before := by
  rintro ⟨b, a, rfl⟩
  have hle := h.le b (a ++ mark ++ after) (by rw [h.eq]; simp only [List.append_assoc])
  have hmark : 0 < mark.length := List.length_pos_iff.2 hne
  simp only [List.length_append] at hle
  omega

end FirstCut

/-- A text is cut at the first mark. -/
theorem cut?_eq_some_iff {s before after : List Char} :
    cut? mark s = some (before, after) ↔ FirstCut mark s before after := by
  refine ⟨firstCut_of_cut?, fun h => ?_⟩
  have hinfix : mark <:+: s := ⟨before, after, h.eq.symm⟩
  obtain ⟨⟨b, a⟩, hcut⟩ := Option.isSome_iff_exists.1 ((cut?_isSome_iff mark s).2 hinfix)
  obtain ⟨rfl, rfl⟩ := (firstCut_of_cut? hcut).unique h
  exact hcut

/-! ### Marks that do not overlap themselves -/

/-- A mark that does not overlap itself: nothing but the whole of it is both its start and its
end. -/
def Borderless (mark : List Char) : Prop :=
  ∀ u, u ≠ [] → u <+: mark → u <:+ mark → u = mark

theorem borderless_singleton (c : Char) : Borderless [c] := by
  intro u hu hstart _
  cases u with
  | nil => exact absurd rfl hu
  | cons d u =>
    obtain ⟨rfl, hnil⟩ := List.cons_prefix_cons.1 hstart
    rw [List.prefix_nil.1 hnil]

/-- A mark that does not overlap itself is found behind a text in which it does not occur. -/
theorem cut?_append (hb : Borderless mark) (hne : mark ≠ []) {text : List Char}
    (hfree : ¬ mark <:+: text) (rest : List Char) :
    cut? mark (text ++ mark ++ rest) = some (text, rest) := by
  induction text with
  | nil =>
    cases mark with
    | nil => exact absurd rfl hne
    | cons c mark => simp [cut?]
  | cons c text ih =>
    have hnot : ¬ mark <+: (c :: text) ++ (mark ++ rest) := by
      intro hstart
      rcases List.prefix_or_prefix_of_prefix hstart (List.prefix_append _ _) with hin | hover
      · exact hfree hin.isInfix
      -- the mark would begin in the text and end in the mark behind it
      · obtain ⟨u, hu⟩ := hover
        have hstart' : u <+: mark ++ rest := by
          rwa [← hu, List.prefix_append_right_inj, hu] at hstart
        have hlen := congrArg List.length hu
        simp only [List.length_append, List.length_cons] at hlen
        have hprefix : u <+: mark :=
          List.prefix_of_prefix_length_le hstart' (List.prefix_append _ _) (by omega)
        by_cases hnil : u = []
        · rw [hnil, List.append_nil] at hu
          exact hfree (hu ▸ List.infix_rfl)
        · have hwhole := congrArg List.length (hb u hnil hprefix ⟨_, hu⟩)
          omega
    have htail : ¬ mark <:+: text := fun h => hfree (h.trans (List.suffix_cons c text).isInfix)
    have hih := ih htail
    rw [List.append_assoc] at hih ⊢
    rw [List.cons_append] at hnot ⊢
    rw [cut?, if_neg (mt List.isPrefixOf_iff_prefix.1 hnot), hih]
    rfl

/-- Where a text starts with two texts without the mark, each with the mark behind it, they are the
same. -/
theorem append_mark_inj (hb : Borderless mark) (hne : mark ≠ []) {a b x y : List Char}
    (ha : ¬ mark <:+: a) (hbfree : ¬ mark <:+: b) (h : a ++ mark ++ x = b ++ mark ++ y) :
    a = b ∧ x = y := by
  have hcut := cut?_append hb hne ha x
  rw [h, cut?_append hb hne hbfree y] at hcut
  simpa [eq_comm] using hcut

theorem infix_append_mark (a rest : List Char) : mark <:+: a ++ mark ++ rest :=
  ⟨a, rest, rfl⟩

/-- Joined texts that start with a text and a mark are this text and others. -/
theorem exists_eq_cons_of_intercalate (hb : Borderless mark) (hne : mark ≠ []) {a y : List Char}
    (ha : ¬ mark <:+: a) {bs : List (List Char)} (hbs : ∀ b ∈ bs, ¬ mark <:+: b)
    (h : mark.intercalate bs = a ++ mark ++ y) :
    ∃ b bs', bs = a :: b :: bs' ∧ mark.intercalate (b :: bs') = y := by
  match bs with
  | [] =>
    rw [List.intercalate_nil] at h
    simp [hne] at h
  | [b] =>
    rw [List.intercalate_singleton] at h
    exact absurd (h ▸ infix_append_mark a y) (hbs b List.mem_cons_self)
  | b :: b' :: bs =>
    rw [List.intercalate_cons_cons] at h
    obtain ⟨rfl, hrest⟩ := append_mark_inj hb hne (hbs b List.mem_cons_self) ha h
    exact ⟨b', bs, rfl, hrest⟩

/-- Texts joined by a mark can be told apart if it occurs in none of them and does not overlap
itself. -/
theorem intercalate_injective (hb : Borderless mark) (hne : mark ≠ []) :
    ∀ {as bs : List (List Char)}, (∀ a ∈ as, ¬ mark <:+: a) → (∀ b ∈ bs, ¬ mark <:+: b) →
      as ≠ [] → bs ≠ [] → mark.intercalate as = mark.intercalate bs → as = bs := by
  intro as
  induction as with
  | nil => exact fun _ _ h => absurd rfl h
  | cons a as ih =>
    intro bs has hbs _ hbs' h
    have ha := has a List.mem_cons_self
    cases as with
    | nil =>
      match bs with
      | [] => exact absurd rfl hbs'
      | [b] => simpa using h
      | b :: b' :: bs =>
        rw [List.intercalate_singleton, List.intercalate_cons_cons] at h
        exact absurd (h ▸ infix_append_mark b _) ha
    | cons a' as =>
      rw [List.intercalate_cons_cons] at h
      obtain ⟨b, bs, rfl, hrest⟩ := exists_eq_cons_of_intercalate hb hne ha hbs h.symm
      rw [ih (fun t ht => has t (List.mem_cons_of_mem _ ht))
        (fun t ht => hbs t (List.mem_cons_of_mem _ ht)) (List.cons_ne_nil _ _)
        (List.cons_ne_nil _ _) hrest.symm]

/-- Where joined texts start with other joined texts and a mark, these are the first of them. -/
theorem prefix_of_intercalate (hb : Borderless mark) (hne : mark ≠ []) (x : List Char) :
    ∀ {as bs : List (List Char)}, (∀ a ∈ as, ¬ mark <:+: a) → (∀ b ∈ bs, ¬ mark <:+: b) →
      as ≠ [] → mark.intercalate bs = mark.intercalate as ++ mark ++ x → as <+: bs := by
  intro as
  induction as with
  | nil => exact fun _ _ h => absurd rfl h
  | cons a as ih =>
    intro bs has hbs _ h
    have ha := has a List.mem_cons_self
    cases as with
    | nil =>
      rw [List.intercalate_singleton] at h
      obtain ⟨b, bs, rfl, -⟩ := exists_eq_cons_of_intercalate hb hne ha hbs h
      exact List.cons_prefix_cons.2 ⟨rfl, List.nil_prefix⟩
    | cons a' as =>
      have hfirst : mark.intercalate bs =
          a ++ mark ++ (mark.intercalate (a' :: as) ++ mark ++ x) := by
        rw [h, List.intercalate_cons_cons]
        simp only [List.append_assoc]
      obtain ⟨b, bs, rfl, hrest⟩ := exists_eq_cons_of_intercalate hb hne ha hbs hfirst
      exact List.cons_prefix_cons.2 ⟨rfl, ih (fun t ht => has t (List.mem_cons_of_mem _ ht))
        (fun t ht => hbs t (List.mem_cons_of_mem _ ht)) (List.cons_ne_nil _ _) hrest⟩

theorem not_infix_of_length_le {t : List Char} (hlen : t.length ≤ mark.length) (hne : t ≠ mark) :
    ¬ mark <:+: t := fun h => hne (h.eq_of_length_le hlen).symm

theorem exists_char_ne (c : Char) : ∃ d, d ≠ c := by
  by_cases h : c = 'a'
  · exact ⟨'b', by rw [h]; decide⟩
  · exact ⟨'a', Ne.symm h⟩

/-- If a mark overlaps itself, there are texts in which it does not occur that cannot be told apart
when they are joined. -/
theorem exists_joined_of_border (hne : mark ≠ []) (hborder : ¬ Borderless mark) :
    ∃ a b a' b' : List Char, (∀ t ∈ [a, b, a', b'], t ≠ [] ∧ ¬ mark <:+: t) ∧ a ≠ a' ∧
      a ++ mark ++ b = a' ++ mark ++ b' := by
  unfold Borderless at hborder
  push Not at hborder
  obtain ⟨u, hu, ⟨v, hv⟩, ⟨w, hw⟩, hproper⟩ := hborder
  -- a character that the mark does not begin with, and one that it does not end in
  obtain ⟨d, hd⟩ := exists_char_ne (mark.head hne)
  obtain ⟨e, he⟩ := exists_char_ne (mark.getLast hne)
  have hulen : 0 < u.length := List.length_pos_iff.2 hu
  have hvlen := congrArg List.length hv
  have hwlen := congrArg List.length hw
  have hw0 : w ≠ [] := by
    rintro rfl
    exact hproper hw
  have hw0len : 0 < w.length := List.length_pos_iff.2 hw0
  simp only [List.length_append] at hvlen hwlen
  have hone : ∀ c : Char, ¬ mark <:+: [c] := fun c h => by
    have := h.length_le
    simp only [List.length_cons, List.length_nil] at this
    omega
  have hfront : ¬ mark <:+: d :: w := by
    refine not_infix_of_length_le ?_ ?_
    · simp only [List.length_cons]
      omega
    · rintro rfl
      exact hd rfl
  have hback : ¬ mark <:+: v ++ [e] := by
    refine not_infix_of_length_le ?_ ?_
    · simp only [List.length_append, List.length_singleton]
      omega
    · rintro rfl
      exact he (by simp)
  refine ⟨d :: w, [e], [d], v ++ [e], ?_, by simpa using hw0, ?_⟩
  · simp [hone, hfront, hback]
  · -- behind the first character stands the mark with what is left of another one on either side
    calc (d :: w) ++ mark ++ [e] = [d] ++ (w ++ (u ++ v)) ++ [e] := by rw [hv]; simp
      _ = [d] ++ (w ++ u) ++ (v ++ [e]) := by simp
      _ = [d] ++ mark ++ (v ++ [e]) := by rw [hw]

end Stencil.Text
