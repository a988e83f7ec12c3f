import Stencil.Proofs.Source.Layout
import Stencil.Proofs.Template.Edits

/-!
# The course of a source

What a line does is seen without the state of the parse.  The path that is open and the line alone
say which path is open after it, and whether the line fails; the pending break and the line say what
is added to the open template.  So a source has a log of edits, each with the path of the template
that it is made to.

## Main definitions

* `Markup.Line.pathAfter`, `Markup.Line.failure?`, `Markup.Line.edits?` — what a line does.
* `Markup.openPath`, `Markup.firstFailure?`, `Markup.editLog` — what lines do.

## Main results

* `Markup.openPath_append`, `Markup.firstFailure?_append`, `Markup.editLog_append` — lines one after
  the other.
* `Markup.firstFailure?_eq_some_iff` — the first line that fails.
-/

namespace Stencil

variable {ω : Type}

/-! ### Lines -/

/-- A text as the edits that add it; an empty one adds nothing. -/
def textEdits (text : List Char) : List (Edit ω) :=
  if text.isEmpty then [] else [.addStatic (Utf8.encode text)]

/-- A cut line as the edits that add it; a placeholder without a name is refused. -/
def InlineScan.edits (scan : InlineScan) : List (Edit ω) :=
  scan.marked.flatMap (fun (text, name) =>
    textEdits text ++ [.addPlaceholder (String.ofList name) none]) ++ textEdits scan.tail

/-- The pending break as the edits that add it, if it is kept. -/
def breakEdits (pending : String) (keep : Bool) : List (Edit ω) :=
  if keep then [.addStatic (Utf8.encode pending.toList)] else []

namespace Markup.Line

/-- The path that is open after a line. -/
def pathAfter (path : List String) : Markup.Line → List String
  | .start _ (.ok (some name)) => path ++ [name]
  | .finish _ _ => path.dropLast
  | _ => path

/-- The break that is pending after a line. -/
def breakAfter (m : Markup) : Markup.Line → String
  | .finish _ (.ok keep) | .block _ _ (.ok keep) => Parsing.breakAfter m keep
  | .plain _ => m.lineEnd
  | _ => ""

/-- What stops a line with a number, where a path is open. -/
def failure? (m : Markup) (path : List String) (number : Nat) : Markup.Line → Option (Failure ω)
  | .start (.error f) _ | .start (.ok _) (.error f) => some (.fault f)
  | .start (.ok _) (.ok none) => some (.fault .nameWithoutText)
  | .start (.ok _) (.ok (some name)) =>
    if Text.occurs m.pathSep.toList name.toList then
      some (.parse (.invalidName name m.pathSep number))
    else none
  | .finish (.error f) _ => some (.fault f)
  | .finish (.ok name) trail =>
    if path.getLast?.isNone || path.getLast? != name then
      some (.parse (.unexpectedEnd name path.getLast? number))
    else
      match trail with
      | .error f => some (.fault f)
      | .ok _ => none
  | .block (.error f) _ _ | .block (.ok _) (.error f) _ => some (.fault f)
  | .block (.ok _) (.ok name) trail =>
    if (name.getD "").isEmpty then some (.fault .emptyName)
    else
      match trail with
      | .error f => some (.fault f)
      | .ok _ => none
  | .plain text =>
    (m.scan text).unclosed.map fun rest =>
      .parse (.unterminatedPlaceholder (String.ofList rest) number)

/-- What a line adds to the open template, before which a break is pending; nothing if it leaves it
alone. -/
def edits? (m : Markup) (pending : String) : Markup.Line → Option (List (Edit ω))
  | .start (.ok true) _ => some (breakEdits pending true)
  | .block (.ok keep) (.ok name) _ =>
    some (breakEdits pending keep ++ [.addPlaceholder (name.getD "") none])
  | .plain text => some (breakEdits pending true ++ (m.scan text).edits)
  | _ => none

end Markup.Line

/-! ### Lines one after the other -/

/-- Edits in order, each with the path of the template that they are made to. -/
abbrev EditLog (ω : Type) := List (List String × List (Edit ω))

namespace Markup

/-- The path that is open after lines. -/
def openPath (path : List String) (whats : List Markup.Line) : List String :=
  whats.foldl (fun path what => what.pathAfter path) path

/-- The break that is pending after lines. -/
def openBreak (m : Markup) (pending : String) (whats : List Markup.Line) : String :=
  whats.foldl (fun _ what => what.breakAfter m) pending

/-- What stops the first line that fails, if the first of all has a number. -/
def firstFailure? (m : Markup) : (path : List String) → (number : Nat) → List Markup.Line →
    Option (Failure ω)
  | _, _, [] => none
  | path, number, what :: rest =>
    (what.failure? m path number).or (firstFailure? m (what.pathAfter path) (number + 1) rest)

/-- What lines add, if none of them fails. -/
def editLog (m : Markup) : (path : List String) → (pending : String) → List Markup.Line →
    EditLog ω
  | _, _, [] => []
  | path, pending, what :: rest =>
    (what.edits? m pending).toList.map (path, ·) ++
      editLog m (what.pathAfter path) (what.breakAfter m) rest

theorem firstFailure?_cons (m : Markup) (path : List String) (number : Nat) (what : Markup.Line)
    (rest : List Markup.Line) : (firstFailure? m path number (what :: rest) : Option (Failure ω)) =
      (what.failure? m path number).or
        (firstFailure? m (what.pathAfter path) (number + 1) rest) := rfl

theorem editLog_cons (m : Markup) (path : List String) (pending : String) (what : Markup.Line)
    (rest : List Markup.Line) : (editLog m path pending (what :: rest) : EditLog ω) =
      (what.edits? m pending).toList.map (path, ·) ++
        editLog m (what.pathAfter path) (what.breakAfter m) rest := rfl

@[simp] theorem openPath_cons (path : List String) (what : Markup.Line) (rest : List Markup.Line) :
    openPath path (what :: rest) = openPath (what.pathAfter path) rest := rfl

theorem openPath_append (path : List String) (whats rest : List Markup.Line) :
    openPath path (whats ++ rest) = openPath (openPath path whats) rest := List.foldl_append

theorem editLog_append (m : Markup) (whats rest : List Markup.Line) :
    ∀ (path : List String) (pending : String),
      (editLog m path pending (whats ++ rest) : EditLog ω) = editLog m path pending whats ++
        editLog m (openPath path whats) (openBreak m pending whats) rest := by
  induction whats with
  | nil => exact fun path pending => rfl
  | cons what whats ih =>
    intro path pending
    rw [List.cons_append, editLog_cons, ih, editLog_cons, List.append_assoc]
    rfl

theorem firstFailure?_append (m : Markup) (whats rest : List Markup.Line) :
    ∀ (path : List String) (number : Nat),
      (firstFailure? m path number (whats ++ rest) : Option (Failure ω)) =
        (firstFailure? m path number whats).or
          (firstFailure? m (openPath path whats) (number + whats.length) rest) := by
  induction whats with
  | nil => exact fun path number => rfl
  | cons what whats ih =>
    intro path number
    rw [List.cons_append, firstFailure?_cons, ih, firstFailure?_cons, Option.or_assoc,
      List.length_cons, openPath_cons, Nat.add_assoc, Nat.add_comm 1]

/-- A line that fails where those before it do not is the first that fails. -/
theorem firstFailure?_eq_some_iff {m : Markup} {e : Failure ω} {whats : List Markup.Line} :
    ∀ {path : List String} {number : Nat}, m.firstFailure? path number whats = some e ↔
      ∃ before what after, whats = before ++ what :: after ∧
        (m.firstFailure? path number before : Option (Failure ω)) = none ∧
        what.failure? m (openPath path before) (number + before.length) = some e := by
  intro path number
  constructor
  · induction whats generalizing path number with
    | nil => exact nofun
    | cons first whats ih =>
      intro h
      rw [firstFailure?_cons] at h
      cases hfirst : (first.failure? m path number : Option (Failure ω)) with
      | some e' =>
        rw [hfirst, Option.some_or] at h
        exact ⟨[], first, whats, rfl, rfl, hfirst.trans h⟩
      | none =>
        rw [hfirst, Option.none_or] at h
        obtain ⟨before, what, after, rfl, hbefore, hwhat⟩ := ih h
        refine ⟨first :: before, what, after, rfl, ?_, ?_⟩
        · rw [firstFailure?_cons, hfirst, hbefore, Option.none_or]
        · rwa [List.length_cons, openPath_cons, Nat.add_comm before.length, ← Nat.add_assoc]
  · rintro ⟨before, what, after, rfl, hbefore, hwhat⟩
    rw [firstFailure?_append, hbefore, Option.none_or, firstFailure?_cons, hwhat, Option.some_or]

theorem firstFailure?_eq_none_iff {m : Markup} {whats : List Markup.Line} {path : List String}
    {number : Nat} : (m.firstFailure? path number whats : Option (Failure ω)) = none ↔
      ∀ before what after, whats = before ++ what :: after →
        (what.failure? m (openPath path before) (number + before.length) :
          Option (Failure ω)) = none := by
  constructor
  · rintro h before what after rfl
    rw [firstFailure?_append, Option.or_eq_none_iff, firstFailure?_cons,
      Option.or_eq_none_iff] at h
    exact h.2.1
  · intro h
    refine Option.eq_none_iff_forall_ne_some.2 fun e he => ?_
    obtain ⟨before, what, after, hwhats, -, hwhat⟩ := firstFailure?_eq_some_iff.1 he
    rw [h before what after hwhats] at hwhat
    cases hwhat

end Markup

end Stencil
