import Stencil.Failure
import Stencil.Text.Cut
import Stencil.Value.View

/-!
# Paths into data

A path is a text of segments with a separator between them.  A segment that looks like an integer
leads to an item of a sequence, any other to the entry of a map or the field of a record.  Where
there is no such part the path leads to no value, and so it does from there on; a segment that does
not fit the value it reached is an error.

## Main definitions

* `Segment`, `Segment.ofText` — the segments.
* `Path.segments` — the segments of a path.
* `Path.walk`, `Path.resolve` — the value that a path leads to.
* `Path.splitSpec` — the format and the path of a specification.

## Main results

* `Path.walk_append` — a walk may be taken in two parts.
-/

namespace Stencil

/-- A segment of a path. -/
inductive Segment where
  /-- A position in a sequence. -/
  | index (i : Int)
  /-- The name of an entry or a field. -/
  | name (s : String)
  deriving DecidableEq, Repr

/-- The text without a line feed at its end. -/
def withoutFinalNewline (s : List Char) : List Char :=
  if s.getLast? = some '\n' then s.dropLast else s

/-- The segment that a text is: a position if it is an integer, in digits of any script, with a line
feed at its end allowed. -/
def Segment.ofText (s : List Char) : Segment :=
  match Text.integer? (withoutFinalNewline s) with
  | some i => .index i
  | none => .name (String.ofList s)

/-- The fault of a segment that is an integer with more digits than `most`, if it is one. -/
def Segment.fault? (most : Nat) (s : List Char) : Option Fault :=
  match Text.integer? (withoutFinalNewline s) with
  | some _ =>
    let digits := s.countP Text.isDigit
    if most < digits then some (.notWhole (.tooManyDigits most digits)) else none
  | none => none

namespace Path

/-- The separator used where none is asked for. -/
def standardSeparator : String := "."

/-- The segments of a path, unless one of them is an integer with too many digits. -/
def segments [DigitLimit] (separator path : String) : Except Fault (List Segment) :=
  if separator.isEmpty then .error .emptySeparator
  else
    let pieces := Text.pieces separator.toList path.toList
    match DigitLimit.most?.bind fun most => pieces.findSome? (Segment.fault? most) with
    | some f => .error f
    | none => .ok (pieces.map Segment.ofText)

/-- Without a limit on digits every text has segments. -/
theorem segments_eq_ok {separator : String} (hsep : separator.isEmpty = false) (path : String) :
    segments separator path =
      .ok ((Text.pieces separator.toList path.toList).map Segment.ofText) := by
  rw [segments, hsep]
  rfl

/-- The part of a value that a segment leads to. -/
def step (added : List Adapter) (path : String) (position : Nat) (v : Value) (seg : Segment) :
    Except TypeMismatch Value :=
  let mismatch := fun expected => TypeMismatch.mk position path expected (v.kindName added)
  match seg, v.view? added with
  | .index i, some view =>
    if view.isSequence then .ok (view.index i) else .error (mismatch .sequence)
  | .index _, none => .error (mismatch .sequence)
  | .name s, some view =>
    if view.isSequence then .error (mismatch .named) else .ok (view.field s)
  | .name _, none => .error (mismatch .named)

/-- The value that segments lead to, the first of which is at `position`. -/
def walk (added : List Adapter) (path : String) :
    (position : Nat) → List Segment → Value → Except TypeMismatch Value
  | _, [], v => .ok v
  | position, seg :: rest, v =>
    if v.isSome then
      match step added path position v seg with
      | .ok part => walk added path (position + 1) rest part
      | .error e => .error e
    else .ok .none

@[simp] theorem walk_nil (added : List Adapter) (path : String) (position : Nat) (v : Value) :
    walk added path position [] v = .ok v := rfl

theorem walk_none (added : List Adapter) (path : String) (position : Nat) (segs : List Segment) :
    walk added path position segs .none = .ok .none := by
  cases segs <;> rfl

/-- A walk may be taken in two parts. -/
theorem walk_append (added : List Adapter) (path : String) (position : Nat)
    (segs more : List Segment) (v : Value) :
    walk added path position (segs ++ more) v =
      (match walk added path position segs v with
        | .ok part => walk added path (position + segs.length) more part
        | .error e => .error e) := by
  induction segs generalizing position v with
  | nil => rfl
  | cons seg segs ih =>
    simp only [List.cons_append, walk]
    split
    · split
      · rw [ih]; simp [Nat.add_comm, Nat.add_left_comm]
      · rfl
    · simp [walk_none]

/-- The value that a path leads to. -/
def resolve [DigitLimit] {ω : Type} (added : List Adapter) (separator path : String)
    (data : Value) : Except (Failure ω) Value :=
  match segments separator path with
  | .error f => .error (.fault f)
  | .ok segs =>
    match walk added path 0 segs data with
    | .ok v => .ok v
    | .error e => .error (.path e)

/-- The format and the path of a specification: a format comes before the first blank, unless that
stands at the start. -/
def splitSpec (spec : List Char) : List Char × List Char :=
  match Text.cut? [' '] spec with
  | some (c :: format, path) => (c :: format, path)
  | _ => ([], spec)

end Path

end Stencil
