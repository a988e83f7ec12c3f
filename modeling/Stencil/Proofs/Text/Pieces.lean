import Stencil.Proofs.Text.Mark

/-!
# The pieces of a text

A text is cut at its marks from left to right.  It has no mark, or it is a text without one, a mark
and a rest; so facts about pieces are shown by induction on the marks of the text.  If the mark does
not overlap itself, a mark that is put between two texts is one of those at which they are cut.

## Main results

* `Text.mark_induction` — induction on the marks of a text.
* `Text.pieces_append` — the pieces of two texts with a mark between them.
* `Text.length_pieces_singleton` — there is one piece more than there are marks.
-/

namespace Stencil.Text

variable {mark : List Char}

/-- Induction on the marks of a text. -/
@[elab_as_elim]
theorem mark_induction (hne : mark ≠ []) {P : List Char → Prop}
    (free : ∀ s, ¬ mark <:+: s → P s)
    (behind : ∀ s rest, ¬ mark <:+: s → P rest → P (s ++ mark ++ rest)) (s : List Char) : P s := by
  induction hlen : s.length using Nat.strong_induction_on generalizing s with
  | _ n ih =>
    cases hcut : cut? mark s with
    | none => exact free s (cut?_eq_none_iff.1 hcut)
    | some parts =>
      obtain ⟨before, after⟩ := parts
      have hlt : after.length < n := hlen ▸ length_lt_of_cut? hne hcut
      rw [cut?_eq_some hcut]
      exact behind before after ((cut?_eq_some_iff.1 hcut).free_before hne) (ih _ hlt after rfl)

/-- As many cuts as the text has characters are enough. -/
theorem piecesUpTo_eq (hne : mark ≠ []) : ∀ (fuel : Nat) (s : List Char), s.length ≤ fuel →
    piecesUpTo mark fuel s = pieces mark s := by
  suffices h : ∀ (fuel fuel' : Nat) (s : List Char), s.length ≤ fuel → s.length ≤ fuel' →
      piecesUpTo mark fuel s = piecesUpTo mark fuel' s from
    fun fuel s hs => h fuel s.length s hs (Nat.le_refl _)
  have hempty (fuel : Nat) : piecesUpTo mark fuel [] = [[]] := by
    cases fuel with
    | zero => rfl
    | succ fuel => rw [piecesUpTo, cut?, if_neg (by simpa using hne)]
  intro fuel
  induction fuel with
  | zero =>
    intro fuel' s hs _
    obtain rfl := List.length_eq_zero_iff.1 (Nat.le_zero.1 hs)
    rw [hempty, hempty]
  | succ fuel ih =>
    intro fuel' s hs hs'
    cases fuel' with
    | zero =>
      obtain rfl := List.length_eq_zero_iff.1 (Nat.le_zero.1 hs')
      rw [hempty, hempty]
    | succ fuel' =>
      rw [piecesUpTo, piecesUpTo]
      cases hcut : cut? mark s with
      | none => rfl
      | some parts =>
        have hlt := length_lt_of_cut? hne hcut
        exact congrArg (parts.1 :: ·) (ih fuel' parts.2 (by omega) (by omega))

/-- A text without a mark is one piece. -/
theorem pieces_of_free {s : List Char} (hfree : ¬ mark <:+: s) : pieces mark s = [s] := by
  rw [pieces]
  cases s.length with
  | zero => rfl
  | succ fuel => rw [piecesUpTo, cut?_eq_none_iff.2 hfree]

/-- A text without a mark is the first piece if a mark stands behind it. -/
theorem pieces_behind (hb : Borderless mark) (hne : mark ≠ []) {s : List Char}
    (hfree : ¬ mark <:+: s) (rest : List Char) :
    pieces mark (s ++ mark ++ rest) = s :: pieces mark rest := by
  have hmark : 0 < mark.length := List.length_pos_iff.2 hne
  have hlen : (s ++ mark ++ rest).length = (s.length + mark.length - 1 + rest.length) + 1 := by
    simp only [List.length_append]
    omega
  rw [pieces, hlen, piecesUpTo, cut?_append hb hne hfree]
  dsimp only
  rw [piecesUpTo_eq hne _ rest (by omega)]

/-- **The pieces of two texts with a mark between them** are those of the one and of the other. -/
theorem pieces_append (hb : Borderless mark) (hne : mark ≠ []) (s t : List Char) :
    pieces mark (s ++ mark ++ t) = pieces mark s ++ pieces mark t := by
  induction s using mark_induction hne with
  | free s hfree => rw [pieces_behind hb hne hfree, pieces_of_free hfree, List.singleton_append]
  | behind s rest hfree ih =>
    have hassoc : s ++ mark ++ rest ++ mark ++ t = s ++ mark ++ (rest ++ mark ++ t) := by
      simp only [List.append_assoc]
    rw [hassoc, pieces_behind hb hne hfree, ih, pieces_behind hb hne hfree, List.cons_append]

/-- A text has one piece more than it has marks, if the mark is a single character. -/
theorem length_pieces_singleton (c : Char) (s : List Char) :
    (pieces [c] s).length = s.count c + 1 := by
  have hne : [c] ≠ [] := List.cons_ne_nil c []
  induction s using mark_induction hne with
  | free s hfree =>
    have hcount : s.count c = 0 := List.count_eq_zero.2 (mt (List.singleton_infix_iff _ _).2 hfree)
    rw [pieces_of_free hfree, hcount, List.length_singleton]
  | behind s rest hfree ih =>
    have hcount : s.count c = 0 := List.count_eq_zero.2 (mt (List.singleton_infix_iff _ _).2 hfree)
    rw [pieces_behind (borderless_singleton c) hne hfree, List.length_cons, ih, List.count_append,
      List.count_append, hcount, List.count_singleton_self]
    omega

end Stencil.Text
