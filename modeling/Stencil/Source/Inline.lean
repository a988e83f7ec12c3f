import Stencil.Text.Cut

/-!
# Inline placeholders

A line is cut from left to right at the marker that opens a placeholder and, behind that, at the one
that closes it.  What is between them is a name, which may be empty; what is before them is text.

## Main definitions

* `InlineScan` — a line cut into texts and names.
* `InlineScan.ofLine` — the cut of a line.
* `InlineScan.toLine` — the line that was cut.

## Main results

* `InlineScan.toLine_ofLine` — a cut loses nothing.
-/

namespace Stencil

/-- A line cut at its markers. -/
structure InlineScan where
  /-- The texts with the name behind each. -/
  marked : List (List Char × List Char)
  /-- The text behind the last name. -/
  tail : List Char
  /-- What is behind a marker that opens a placeholder and is not closed. -/
  unclosed : Option (List Char)
  deriving DecidableEq, Repr, Inhabited

namespace InlineScan

/-- The cut of a line with at most `fuel` names. -/
def ofLineUpTo (opening closing : List Char) : (fuel : Nat) → List Char → InlineScan
  | 0, line => ⟨[], line, none⟩
  | fuel + 1, line =>
    match Text.cut? opening line with
    | none => ⟨[], line, none⟩
    | some (text, after) =>
      match Text.cut? closing after with
      | none => ⟨[], text, some after⟩
      | some (name, rest) =>
        let scan := ofLineUpTo opening closing fuel rest
        { scan with marked := (text, name) :: scan.marked }

/-- The cut of a line. -/
def ofLine (opening closing line : List Char) : InlineScan :=
  ofLineUpTo opening closing (line.length + 1) line

/-- The line that was cut. -/
def toLine (opening closing : List Char) (scan : InlineScan) : List Char :=
  scan.marked.flatMap (fun (text, name) => text ++ opening ++ name ++ closing) ++ scan.tail ++
    (match scan.unclosed with
      | none => []
      | some rest => opening ++ rest)

theorem toLine_ofLineUpTo (opening closing : List Char) (fuel : Nat) (line : List Char) :
    (ofLineUpTo opening closing fuel line).toLine opening closing = line := by
  induction fuel generalizing line with
  | zero => simp [ofLineUpTo, toLine]
  | succ fuel ih =>
    unfold ofLineUpTo
    split
    · simp [toLine]
    · next text after h =>
      split
      · simp [toLine, Text.cut?_eq_some h]
      · next name rest h' =>
        have rejoined := ih rest
        simp only [toLine] at rejoined ⊢
        rw [Text.cut?_eq_some h, Text.cut?_eq_some h']
        simp only [List.flatMap_cons, List.append_assoc] at rejoined ⊢
        rw [rejoined]

/-- A cut loses nothing. -/
theorem toLine_ofLine (opening closing line : List Char) :
    (ofLine opening closing line).toLine opening closing = line :=
  toLine_ofLineUpTo opening closing (line.length + 1) line

end InlineScan

end Stencil
