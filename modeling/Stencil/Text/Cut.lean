/-!
# Cutting a text at a mark

Texts are lists of characters here.  A mark is a non-empty piece of text; `cut?` finds its first
occurrence and `pieces` all occurrences from left to right, none of which overlap.

## Main definitions

* `cut?` — the text before and after the first occurrence of a mark.
* `pieces` — the texts between the occurrences of a mark.
* `join` — the texts with a mark between any two of them.

## Main results

* `cut?_eq_some` — a cut loses nothing.
* `length_lt_of_cut?` — what is after a non-empty mark is shorter.
-/

namespace Stencil.Text

/-- The text before the first occurrence of `mark` and the text after it. -/
def cut? (mark : List Char) : List Char → Option (List Char × List Char)
  | [] => if mark.isEmpty then some ([], []) else none
  | c :: s =>
    if mark.isPrefixOf (c :: s) then some ([], (c :: s).drop mark.length)
    else (cut? mark s).map fun (before, after) => (c :: before, after)

/-- A cut loses nothing: the text is what is before the mark, the mark, and what is after it. -/
theorem cut?_eq_some {mark s before after : List Char} (h : cut? mark s = some (before, after)) :
    s = before ++ mark ++ after := by
  induction s generalizing before with
  | nil =>
    simp only [cut?] at h
    split at h
    · next hm => simp_all [List.isEmpty_iff]
    · simp at h
  | cons c s ih =>
    simp only [cut?] at h
    split at h
    · next hp =>
      obtain ⟨rfl, rfl⟩ := by simpa using h
      obtain ⟨t, ht⟩ := List.isPrefixOf_iff_prefix.1 hp
      simp [← ht]
    · obtain ⟨⟨b, a⟩, hba, heq⟩ := Option.map_eq_some_iff.1 h
      obtain ⟨rfl, rfl⟩ := by simpa using heq
      simp [ih hba]

/-- What is after a non-empty mark is shorter than the text. -/
theorem length_lt_of_cut? {mark s before after : List Char} (hm : mark ≠ [])
    (h : cut? mark s = some (before, after)) : after.length < s.length := by
  have hs := congrArg List.length (cut?_eq_some h)
  have := List.length_pos_iff.2 hm
  simp only [List.length_append] at hs
  omega

/-- Whether `mark` occurs in the text. -/
def occurs (mark s : List Char) : Bool := (cut? mark s).isSome

/-- The texts between the occurrences of `mark`, for texts of at most `fuel` marks. -/
def piecesUpTo (mark : List Char) : Nat → List Char → List (List Char)
  | 0, s => [s]
  | fuel + 1, s =>
    match cut? mark s with
    | none => [s]
    | some (before, after) => before :: piecesUpTo mark fuel after

/-- The texts between the occurrences of a non-empty mark. -/
def pieces (mark s : List Char) : List (List Char) := piecesUpTo mark s.length s

/-- The texts with `mark` between any two of them. -/
def join (mark : List Char) : List (List Char) → List Char
  | [] => []
  | [s] => s
  | s :: t :: rest => s ++ mark ++ join mark (t :: rest)

@[simp] theorem join_nil (mark : List Char) : join mark [] = [] := rfl

@[simp] theorem join_singleton (mark s : List Char) : join mark [s] = s := rfl

@[simp] theorem join_cons_cons (mark s t : List Char) (rest : List (List Char)) :
    join mark (s :: t :: rest) = s ++ mark ++ join mark (t :: rest) := rfl

end Stencil.Text
