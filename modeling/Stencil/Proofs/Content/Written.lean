import Stencil.Proofs.Content.Shadow
import Stencil.Proofs.Template.Parts

/-!
# What content writes

Seen from a buffer, content writes some bytes and then either ends or was stopped.  What it writes
does not depend on what the buffer holds already, so what a template writes is made up, from left to
right, of what its slots and fragments write; what comes after a stop is not written.

## Main definitions

* `Written` — bytes, and whether they are all there was to write.
* `Written.andThen` — what is written one after the other.
* `Tree.written` — what content writes.
* `Part.written`, `Part.writtenAll` — what parts of a template write if their holes are filled.

## Main results

* `Written.whole_weave` — all is written just if every slot is.
* `Tree.emit_writes` — emission to a buffer adds what the content writes.
* `Tree.written_bound` — what a bound template writes, slot by slot.
* `Template.written_filled` — what a template with its holes filled writes, part by part.
-/

namespace Stencil

variable {ω α : Type}

/-- What was written, and whether it is all there was to write. -/
structure Written where
  /-- The bytes. -/
  bytes : Bytes
  /-- Whether nothing stopped. -/
  whole : Bool
  deriving DecidableEq, Repr

namespace Written

/-- Bytes that are all written. -/
def all (data : Bytes) : Written := ⟨data, true⟩

/-- What is written by something, unless that is stopped, followed by something else. -/
def andThen (w next : Written) : Written :=
  if w.whole then ⟨w.bytes ++ next.bytes, next.whole⟩ else w

@[simp] theorem andThen_all_nil (w : Written) : w.andThen (all []) = w := by
  obtain ⟨bytes, whole⟩ := w
  cases whole
  · rfl
  · simp [andThen, all]

@[simp] theorem all_andThen_all (data more : Bytes) :
    (all data).andThen (all more) = all (data ++ more) := rfl

theorem andThen_assoc (w w' w'' : Written) :
    (w.andThen w').andThen w'' = w.andThen (w'.andThen w'') := by
  obtain ⟨bytes, whole⟩ := w
  obtain ⟨bytes', whole'⟩ := w'
  cases whole <;> cases whole' <;> simp [andThen]

/-- What a slot writes, followed by the fragment after it and what comes then; after the last slot
comes none. -/
def thenFragment (w : Written) (fragment : Option Bytes) (next : Written) : Written :=
  match fragment with
  | none => w
  | some f => w.andThen ((all f).andThen next)

/-- What is written at the slots from `slot` on, with the fragments between them. -/
def weave (at_ : Nat → Written) : (slot : Nat) → List Bytes → Written
  | slot, [] => at_ slot
  | slot, f :: rest => (at_ slot).andThen ((all f).andThen (weave at_ (slot + 1) rest))

theorem eq_all_iff {w : Written} {out : Bytes} : w = .all out ↔ w.whole = true ∧ out = w.bytes := by
  obtain ⟨bytes, whole⟩ := w
  rw [all, mk.injEq]
  constructor
  · rintro ⟨rfl, hwhole⟩
    exact ⟨hwhole, rfl⟩
  · rintro ⟨hwhole, rfl⟩
    exact ⟨rfl, hwhole⟩

theorem whole_andThen (w next : Written) : (w.andThen next).whole = (w.whole && next.whole) := by
  obtain ⟨bytes, whole⟩ := w
  cases whole <;> rfl

theorem bytes_andThen {w : Written} (h : w.whole = true) (next : Written) :
    (w.andThen next).bytes = w.bytes ++ next.bytes := by rw [andThen, if_pos h]

/-- What comes behind the last slot is not written, and so need not be whole. -/
theorem whole_thenFragment {w next : Written} {fragment : Option Bytes} :
    (w.thenFragment fragment next).whole = true ↔
      w.whole = true ∧ (fragment.isSome → next.whole = true) := by
  cases fragment with
  | none => simp [thenFragment]
  | some f => simp [thenFragment, whole_andThen, all]

variable (at_ : Nat → Written)

/-- All is written just if every slot is. -/
theorem whole_weave : ∀ (fragments : List Bytes) (slot : Nat),
    (Written.weave at_ slot fragments).whole = true ↔
      ∀ i, i ≤ fragments.length → (at_ (slot + i)).whole = true := by
  intro fragments
  induction fragments with
  | nil =>
    intro slot
    refine ⟨fun h i hi => ?_, fun h => h 0 (Nat.le_refl 0)⟩
    cases Nat.le_zero.1 hi
    exact h
  | cons f fragments ih =>
    intro slot
    have hall : (all f).whole = true := rfl
    rw [weave, whole_andThen, whole_andThen, hall, Bool.true_and, Bool.and_eq_true, ih]
    constructor
    · rintro ⟨hfirst, hrest⟩ i hi
      cases i with
      | zero => exact hfirst
      | succ i =>
        rw [Nat.add_comm i, ← Nat.add_assoc]
        exact hrest i (Nat.le_of_succ_le_succ hi)
    · intro h
      refine ⟨h 0 (Nat.zero_le _), fun i hi => ?_⟩
      rw [Nat.add_assoc, Nat.add_comm 1]
      exact h (i + 1) (Nat.succ_le_succ hi)

end Written

/-! ### Emissions to a buffer -/

namespace Emission

/-- Whether the emission came to its end. -/
def succeeded {σ : Type} (e : Emission σ EmitResult) : Bool :=
  match e.outcome with
  | .ok r => r.isOk
  | .error _ => false

/-- An emission to a buffer that held `held` wrote `w` to it. -/
structure Writes (held : Bytes) (e : Emission Bytes EmitResult) (w : Written) : Prop where
  /-- The bytes are behind those that the buffer held. -/
  sink : e.sink = held ++ w.bytes
  /-- It came to its end if all was written. -/
  succeeded : e.succeeded = w.whole

variable {held : Bytes} {e : Emission Bytes EmitResult} {w w' : Written}

theorem writes_nothing (held : Bytes) (runs : Runs) :
    Writes held (nothing held runs) (.all []) := ⟨(List.append_nil held).symm, rfl⟩

theorem writes_stopped (held : Bytes) (runs : Runs) (cause : EmitCause) :
    Writes held ⟨.ok (.stopped 0 cause), held, runs⟩ ⟨[], false⟩ :=
  ⟨(List.append_nil held).symm, rfl⟩

theorem writes_fault (held : Bytes) (runs : Runs) (f : Fault) :
    Writes held ⟨.error f, held, runs⟩ ⟨[], false⟩ := ⟨(List.append_nil held).symm, rfl⟩

theorem writes_bytes (data held : Bytes) (runs : Runs) :
    Writes held (bytes Sink.buffer data held runs) (.all data) := by
  unfold bytes
  rw [Sink.writeAll_buffer]
  exact ⟨rfl, rfl⟩

theorem Writes.map (h : e.Writes held w) {f : EmitResult → EmitResult}
    (hf : ∀ r, (f r).isOk = r.isOk) : (e.map f).Writes held w := by
  obtain ⟨outcome, s, runs⟩ := e
  refine ⟨h.sink, ?_⟩
  rw [← h.succeeded]
  cases outcome with
  | ok r => exact hf r
  | error f => rfl

theorem Writes.settled (h : e.Writes held w) : e.settled.Writes held w := by
  rw [settled_eq_map]
  exact h.map (EmitResult.isOk_andThen _)

theorem Writes.followedBy {next : Bytes → Runs → Emission Bytes EmitResult}
    (h : e.Writes held w) (hnext : ∀ held runs, (next held runs).Writes held w') :
    (e.followedBy next).Writes held (w.andThen w') := by
  obtain ⟨data, whole⟩ := w
  have hsucceeded := h.succeeded
  unfold Emission.succeeded at hsucceeded
  cases ho : e.outcome with
  | error f =>
    rw [ho] at hsucceeded
    cases hsucceeded
    rw [followedBy_of_fault ho]
    exact h
  | ok r =>
    rw [ho] at hsucceeded
    cases hr : r.isOk with
    | false =>
      cases hr.symm.trans hsucceeded
      rw [followedBy_of_stopped ho hr]
      exact h
    | true =>
      cases hr.symm.trans hsucceeded
      rw [followedBy_of_done ho hr]
      have hmore := (hnext e.sink e.runs).map (EmitResult.isOk_andThen r)
      refine ⟨?_, hmore.succeeded⟩
      rw [hmore.sink, h.sink, List.append_assoc]
      rfl

theorem Writes.thenFragment (h : e.Writes held w) {fragment : Option Bytes}
    {next : Bytes → Runs → Emission Bytes EmitResult}
    (hnext : ∀ held runs, (next held runs).Writes held w') :
    (e.thenFragment Sink.buffer fragment next).Writes held (w.thenFragment fragment w') := by
  cases fragment with
  | none => exact h
  | some f =>
    rw [Written.thenFragment, ← Written.andThen_assoc]
    exact (h.followedBy fun held runs => writes_bytes f held runs).followedBy hnext

end Emission

/-! ### Content -/

/-- What content writes. -/
def Tree.written (c : Tree ω) : Written :=
  ⟨(Tree.emit c Sink.buffer [] []).sink, (Tree.emit c Sink.buffer [] []).succeeded⟩

/-- What is written at a slot: what its content writes, or nothing if it has neither content nor a
name. -/
def slotWritten (name : Option String) : Option (Tree ω) → Written
  | some c => Tree.written c
  | none => ⟨[], name.isNone⟩

/-- What the slots of a template write from `slot` on. -/
def slotsWritten (t : Template ω) : (slot : Nat) → List (Option (Tree ω)) → Written
  | _, [] => ⟨[], false⟩
  | slot, binding :: rest =>
    (slotWritten (t.nameAt slot) binding).thenFragment t.fragments[slot]?
      (slotsWritten t (slot + 1) rest)

/-- **Emission to a buffer adds what the content writes**, whatever the buffer holds. -/
theorem Tree.emit_writes (c : Tree ω) (held : Bytes) (runs : Runs) :
    (Tree.emit c Sink.buffer held runs).Writes held (Tree.written c) := by
  -- a buffer with `held` in it answers as an empty one does
  have halike : Sink.buffer.Alike Sink.buffer fun s s' => s = held ++ s' := by
    rintro data s s' rfl
    exact ⟨rfl, List.append_assoc held s' data⟩
  have hagree := Tree.emit_alike c halike (List.append_nil held).symm runs []
  refine ⟨hagree.sink, ?_⟩
  unfold Emission.succeeded Tree.written Emission.succeeded
  rw [hagree.outcome]

theorem emitSlots_writes (t : Template ω) : ∀ (bindings : List (Option (Tree ω))) (slot : Nat)
    (held : Bytes) (runs : Runs),
    (emitSlots t slot bindings Sink.buffer held runs).Writes held
      (slotsWritten t slot bindings) := by
  intro bindings
  induction bindings with
  | nil => exact fun slot held runs => Emission.writes_fault held runs _
  | cons binding rest ih =>
    intro slot held runs
    cases binding with
    | none =>
      refine Emission.Writes.thenFragment ?_ (ih (slot + 1))
      unfold slotWritten
      cases t.nameAt slot with
      | none => exact Emission.writes_nothing held runs
      | some name => exact Emission.writes_stopped held runs _
    | some c => exact Emission.Writes.thenFragment (Tree.emit_writes c held runs).settled (ih _)

/-- Two accounts of one emission to an empty buffer are the same. -/
theorem Emission.Writes.unique {e : Emission Bytes EmitResult} {w w' : Written}
    (h : e.Writes [] w) (h' : e.Writes [] w') : w = w' := by
  obtain ⟨bytes, whole⟩ := w
  obtain ⟨bytes', whole'⟩ := w'
  cases h.sink.symm.trans h'.sink
  cases h.succeeded.symm.trans h'.succeeded
  rfl

/-- A bound template writes what its slots write. -/
theorem Tree.written_bound (t : Template ω) (bindings : List (Option (Tree ω))) :
    Tree.written (.bound t bindings) = slotsWritten t 0 bindings :=
  (Tree.emit_writes _ [] []).unique (emitSlots_writes t bindings 0 [] [])

/-- A template whose slots from one on have their content writes that, and the fragments after the
slots. -/
theorem slotsWritten_eq_weave (t : Template ω) {content : Nat → Option (Tree ω)} :
    ∀ (fragments : List Bytes) (slot : Nat) (bindings : List (Option (Tree ω))),
      t.fragments.drop slot = fragments →
      (∀ i, i ≤ fragments.length → bindings[i]? = some (content (slot + i))) →
        slotsWritten t slot bindings =
          .weave (fun s => slotWritten (t.nameAt s) (content s)) slot fragments := by
  intro fragments
  induction fragments with
  | nil =>
    intro slot bindings hdrop hbindings
    cases bindings with
    | nil => cases hbindings 0 (Nat.le_refl 0)
    | cons binding rest =>
      have hfirst : binding = content slot := Option.some.inj (hbindings 0 (Nat.le_refl 0))
      -- behind the last fragment one slot is left
      have hnone : t.fragments[slot]? = none :=
        List.getElem?_eq_none (List.drop_eq_nil_iff.1 hdrop)
      rw [slotsWritten, hnone, hfirst]
      rfl
  | cons f fragments ih =>
    intro slot bindings hdrop hbindings
    cases bindings with
    | nil => cases hbindings 0 (Nat.zero_le _)
    | cons binding rest =>
      have hfirst : binding = content slot := Option.some.inj (hbindings 0 (Nat.zero_le _))
      have hsome : t.fragments[slot]? = some f := by
        rw [← List.head?_drop, hdrop]
        rfl
      have hdrop' : t.fragments.drop (slot + 1) = fragments := by
        rw [← List.tail_drop, hdrop]
        rfl
      have hrest := ih (slot + 1) rest hdrop' fun i hi => by
        rw [Nat.add_assoc, Nat.add_comm 1]
        exact hbindings (i + 1) (Nat.succ_le_succ hi)
      rw [slotsWritten, hsome, hfirst, hrest]
      rfl

/-- Rendering gives what the content writes, if that is all. -/
theorem Tree.render_eq_ok_iff (c : Tree ω) (runs : Runs) (data : Bytes) :
    (Tree.render c runs).1 = .ok data ↔ Tree.written c = .all data := by
  have hsink := (Tree.emit_writes c [] runs).sink
  have hsucceeded := (Tree.emit_writes c [] runs).succeeded
  unfold Tree.render
  unfold Emission.succeeded at hsucceeded
  generalize Tree.emit c Sink.buffer [] runs = e at hsink hsucceeded ⊢
  obtain ⟨outcome, s, runs⟩ := e
  generalize Tree.written c = w at hsink hsucceeded ⊢
  obtain ⟨bytes, whole⟩ := w
  cases hsink
  cases hsucceeded
  rcases outcome with f | ⟨count, _ | error⟩ <;> simp [Written.all, EmitResult.isOk]

/-! ### Parts -/

variable [Wrapping ω (Tree ω)]

/-- The content under a wrap, if there is one. -/
def Tree.under (wrap : Option ω) (c : Tree ω) : Tree ω :=
  match wrap with
  | some w => Wrapping.apply w c
  | none => c

/-- What a part writes: a hole writes the content that `fill` has for its name, under its wrap. -/
def Part.written (fill : String → Tree ω) : Part ω → Written
  | .byte b => .all [b]
  | .hole name wrap => Tree.written (Tree.under wrap (fill name))

/-- What parts write, one after the other. -/
def Part.writtenAll (fill : String → Tree ω) : List (Part ω) → Written
  | [] => .all []
  | p :: rest => (p.written fill).andThen (writtenAll fill rest)

variable (fill : String → Tree ω)

@[simp] theorem Part.writtenAll_append (ps qs : List (Part ω)) :
    Part.writtenAll fill (ps ++ qs) =
      (Part.writtenAll fill ps).andThen (Part.writtenAll fill qs) := by
  induction ps with
  | nil => rfl
  | cons p rest ih => rw [List.cons_append, writtenAll, ih, writtenAll, Written.andThen_assoc]

@[simp] theorem Part.writtenAll_bytes (data : Bytes) :
    Part.writtenAll fill (Part.bytes data) = .all data := by
  induction data with
  | nil => rfl
  | cons b rest ih =>
    rw [Part.bytes, List.map_cons, Part.writtenAll, ← Part.bytes, ih]
    rfl

/-- What a template with its holes filled binds at a slot. -/
def Template.filling (t : Template ω) (slot : Nat) : Option (Tree ω) :=
  (t.nameAt slot).map fun name => Tree.under (t.wrapAt slot) (fill name)

theorem slotWritten_filling (t : Template ω) (slot : Nat) :
    slotWritten (t.nameAt slot) (t.filling fill slot) =
      Part.writtenAll fill (t.slotParts slot) := by
  unfold Template.filling Template.slotParts
  cases t.nameAt slot with
  | none => rfl
  | some name => exact (Written.andThen_all_nil _).symm

theorem slotsWritten_filling (t : Template ω) (fragments : List Bytes) (slot : Nat)
    (bindings : List (Option (Tree ω))) (hdrop : t.fragments.drop slot = fragments)
    (hbindings : ∀ i, i ≤ fragments.length → bindings[i]? = some (t.filling fill (slot + i))) :
    slotsWritten t slot bindings =
      Part.writtenAll fill (interleave t.slotParts slot fragments) := by
  have hparts : ∀ (fragments : List Bytes) (slot : Nat),
      Written.weave (fun s => slotWritten (t.nameAt s) (t.filling fill s)) slot fragments =
        Part.writtenAll fill (interleave t.slotParts slot fragments) := by
    intro fragments
    induction fragments with
    | nil => exact fun slot => slotWritten_filling fill t slot
    | cons f fragments ih =>
      intro slot
      rw [Written.weave, ih, slotWritten_filling, interleave_cons]
      simp only [Part.writtenAll_append, Part.writtenAll_bytes]
  rw [slotsWritten_eq_weave t fragments slot bindings hdrop hbindings, hparts]

/-- **A template with its holes filled writes its parts.** -/
theorem Template.written_filled (t : Template ω) {bindings : List (Option (Tree ω))}
    (h : ∀ slot, slot ≤ t.fragments.length → bindings[slot]? = some (t.filling fill slot)) :
    Tree.written (.bound t bindings) = Part.writtenAll fill t.parts := by
  rw [Tree.written_bound, Template.parts]
  refine slotsWritten_filling fill t t.fragments 0 bindings rfl fun i hi => ?_
  rw [Nat.zero_add]
  exact h i hi

end Stencil
