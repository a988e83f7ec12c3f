import Stencil.Path
import Stencil.Proofs.Text.Pieces

/-!
# Paths joined by the separator

Two paths with the separator between them are one path, which leads from the data to where the
second path leads from the value of the first.  A segment that does not fit the value it reached is
the same one in either case, but it is counted from the front of the whole path.

## Main definitions

* `Path.valueAt` — the value that a path leads to, or how the path does not fit the data.
* `Path.segmentCount` — the number of segments of a path.
* `TypeMismatch.within`, `Failure.within` — an error of a part of a path as one of the whole.

## Main results

* `Path.resolve_eq` — what can come of a path.
* `Path.walk_within`, `Path.segment_of_walk` — the position of a segment that does not fit.
* `Path.resolve_joined` — a path may be resolved in two parts.
-/

namespace Stencil

/-- The error of a part of `path`, as an error of the whole, with `before` segments in front. -/
def TypeMismatch.within (path : String) (before : Nat) (e : TypeMismatch) : TypeMismatch :=
  { e with segment := before + e.segment, path }

/-- The failure of a part of `path`, as a failure of the whole, with `before` segments in front. -/
def Failure.within {ω : Type} (path : String) (before : Nat) : Failure ω → Failure ω
  | .path e => .path (e.within path before)
  | e => e

namespace Path

/-- The value that a path leads to, or how the path does not fit the data. -/
def valueAt (added : List Adapter) (separator path : String) (data : Value) :
    Except TypeMismatch Value :=
  walk added path 0 ((Text.pieces separator.toList path.toList).map Segment.ofText) data

theorem resolve_eq {ω : Type} (added : List Adapter) {separator : String}
    (hsep : separator.isEmpty = false) (path : String) (data : Value) :
    (resolve added separator path data : Except (Failure ω) Value) =
      (valueAt added separator path data).mapError .path := by
  rw [resolve, segments_eq_ok hsep]
  dsimp only
  rw [valueAt]
  cases walk added path 0 _ data <;> rfl

/-- The number of segments of a path with the usual separator. -/
def segmentCount (path : String) : Nat := path.toList.count '.' + 1

/-! ### Walks -/

variable (added : List Adapter)

/-- A segment fits a value or not wherever it stands in a path. -/
theorem step_within (path path' : String) (before position : Nat) (v : Value) (seg : Segment) :
    step added path (before + position) v seg =
      (step added path' position v seg).mapError (TypeMismatch.within path before) := by
  unfold step
  cases seg with
  | index i =>
    cases v.view? added with
    | none => rfl
    | some view => cases hkind : view.isSequence <;> simp [hkind] <;> rfl
  | name s =>
    cases v.view? added with
    | none => rfl
    | some view => cases hkind : view.isSequence <;> simp [hkind] <;> rfl

/-- **A walk is the same wherever it begins in a path**, but for the position in its error. -/
theorem walk_within (path path' : String) (before : Nat) : ∀ (segs : List Segment) (position : Nat)
    (v : Value), walk added path (before + position) segs v =
      (walk added path' position segs v).mapError (TypeMismatch.within path before) := by
  intro segs
  induction segs with
  | nil => exact fun position v => rfl
  | cons seg segs ih =>
    intro position v
    rw [walk, walk, step_within added path path']
    split
    · cases step added path' position v seg with
      | ok part => exact ih (position + 1) part
      | error e => rfl
    · rfl

variable {added} {path : String}

/-- The error of a step is about its segment. -/
theorem segment_of_step {position : Nat} {v : Value} {seg : Segment} {e : TypeMismatch}
    (h : step added path position v seg = .error e) : e.path = path ∧ e.segment = position := by
  unfold step at h
  dsimp only at h
  split at h
  · split at h <;> cases h
    exact ⟨rfl, rfl⟩
  · cases h
    exact ⟨rfl, rfl⟩
  · split at h <;> cases h
    exact ⟨rfl, rfl⟩
  · cases h
    exact ⟨rfl, rfl⟩

/-- The error of a walk is about one of its segments. -/
theorem segment_of_walk : ∀ {segs : List Segment} {position : Nat} {v : Value} {e : TypeMismatch},
    walk added path position segs v = .error e →
      e.path = path ∧ position ≤ e.segment ∧ e.segment < position + segs.length := by
  intro segs
  induction segs with
  | nil => exact fun h => by cases h
  | cons seg segs ih =>
    intro position v e h
    rw [walk] at h
    split at h
    · split at h
      · obtain ⟨hpath, hle, hlt⟩ := ih h
        rw [List.length_cons]
        exact ⟨hpath, by omega, by omega⟩
      · next hstep =>
        cases h
        obtain ⟨hpath, hsegment⟩ := segment_of_step hstep
        rw [List.length_cons]
        exact ⟨hpath, by omega, by omega⟩
    · cases h

/-! ### Paths -/

theorem toList_standardSeparator : standardSeparator.toList = ['.'] := rfl

/-- No path leads from no value to a value. -/
theorem valueAt_none (added : List Adapter) (separator path : String) :
    valueAt added separator path .none = .ok .none := walk_none added path 0 _

/-- The error of a path is about one of its segments. -/
theorem segment_of_valueAt {v : Value} {e : TypeMismatch}
    (h : valueAt added standardSeparator path v = .error e) :
    e.path = path ∧ e.segment < segmentCount path := by
  obtain ⟨hpath, -, hlt⟩ := segment_of_walk h
  rw [List.length_map, toList_standardSeparator, Text.length_pieces_singleton] at hlt
  exact ⟨hpath, by rw [segmentCount]; omega⟩

/-- Where two paths lead that are joined. -/
theorem valueAt_joined (added : List Adapter) (p q : String) (data : Value) :
    valueAt added standardSeparator (p ++ standardSeparator ++ q) data =
      match valueAt added standardSeparator p data with
      | .ok v => (valueAt added standardSeparator q v).mapError
          (TypeMismatch.within (p ++ standardSeparator ++ q) (segmentCount p))
      | .error e => .error (e.within (p ++ standardSeparator ++ q) 0) := by
  have hpieces : Text.pieces ['.'] (p ++ standardSeparator ++ q).toList =
      Text.pieces ['.'] p.toList ++ Text.pieces ['.'] q.toList := by
    rw [String.toList_append, String.toList_append, toList_standardSeparator]
    exact Text.pieces_append (Text.borderless_singleton '.') (List.cons_ne_nil _ _) _ _
  have hfirst := walk_within added (p ++ standardSeparator ++ q) p 0
    ((Text.pieces ['.'] p.toList).map Segment.ofText) 0 data
  have hsecond (v : Value) := walk_within added (p ++ standardSeparator ++ q) q (segmentCount p)
    ((Text.pieces ['.'] q.toList).map Segment.ofText) 0 v
  simp only [valueAt, toList_standardSeparator]
  rw [hpieces, List.map_append, walk_append, hfirst, List.length_map,
    Text.length_pieces_singleton]
  cases walk added p 0 ((Text.pieces ['.'] p.toList).map Segment.ofText) data with
  | ok v =>
    rw [Nat.zero_add]
    exact hsecond v
  | error e => rfl

/-- **A path may be resolved in two parts.**  All that can stop a path is that one of its segments
does not fit the value it reached, and no path leads anywhere from no value.  Two paths that are
joined lead to where the second one leads from the value of the first; if a segment does not fit,
it is the same one and does not fit in the same way, behind as many segments as come before it in
the whole. -/
theorem resolve_joined {ω : Type} (added : List Adapter) (p q : String) (data : Value) :
    let resolved (path : String) (v : Value) : Except (Failure ω) Value :=
      resolve added standardSeparator path v
    let joined := p ++ standardSeparator ++ q
    (∀ path v, (∃ w, resolved path v = .ok w) ∨ ∃ e : TypeMismatch,
      resolved path v = .error (.path e) ∧ e.path = path ∧ e.segment < segmentCount path) ∧
    (∀ path, resolved path .none = .ok .none) ∧
    resolved joined data =
      match resolved p data with
      | .ok v => (resolved q v).mapError (Failure.within joined (segmentCount p))
      | .error e => .error (e.within joined 0) := by
  have hsep : standardSeparator.isEmpty = false := rfl
  simp only [resolve_eq added hsep]
  refine ⟨fun path v => ?_, fun path => ?_, ?_⟩
  · cases hvalue : valueAt added standardSeparator path v with
    | ok w => exact .inl ⟨w, rfl⟩
    | error e => exact .inr ⟨e, rfl, segment_of_valueAt hvalue⟩
  · rw [valueAt_none]
    rfl
  · rw [valueAt_joined]
    cases valueAt added standardSeparator p data with
    | ok v =>
      dsimp only [Except.mapError]
      cases valueAt added standardSeparator q v <;> rfl
    | error e => rfl

/-- The second segment of the second path does not fit a number, and is the fourth of the whole. -/
example : valueAt [] standardSeparator ("a.-1" ++ standardSeparator ++ "+0.b")
    (.map [(.str "a", .list [.none, .tuple [.int 7]])]) =
      .error ⟨3, "a.-1.+0.b", .named, "int"⟩ := by
  rfl

end Path
end Stencil
