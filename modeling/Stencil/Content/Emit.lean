import Stencil.Content.Escaping

/-!
# Emission

Emitting a tree of content writes its bytes to a sink, from left to right, until all is written or
something stops it.  The result tells how many bytes reached the sink.  A fault that is no refusal
of the sink ends the emission without a result; what was written stays in the sink.

The labels of the scripts that ran are listed in the order of their runs.

## Main definitions

* `Emission` — the outcome of an emission, the sink and the runs after it.
* `Tree.emit`, `Script.run`, `emitSlots` — the emission of content, of a script, and of the slots of
  a template from one on.
* `Tree.render` — the bytes of content.
-/

namespace Stencil

/-- The labels of the scripts that ran, in order. -/
abbrev Runs := List String

/-- The outcome of an emission, the state of the sink, and the runs of scripts. -/
structure Emission (σ α : Type) where
  /-- What came of it, or the fault that ended it. -/
  outcome : Except Fault α
  /-- The state of the sink after it. -/
  sink : σ
  /-- The runs of scripts so far. -/
  runs : Runs

namespace Emission

variable {σ α β : Type}

/-- An emission followed by what depends on its outcome. -/
def bind (e : Emission σ α) (next : α → σ → Runs → Emission σ β) : Emission σ β :=
  match e.outcome with
  | .ok a => next a e.sink e.runs
  | .error f => ⟨.error f, e.sink, e.runs⟩

/-- An emission that is not stopped, followed by another one whose result is added. -/
def followedBy (e : Emission σ EmitResult) (next : σ → Runs → Emission σ EmitResult) :
    Emission σ EmitResult :=
  e.bind fun r s runs =>
    if r.isOk then (next s runs).bind fun r' s runs => ⟨.ok (r.andThen r'), s, runs⟩
    else ⟨.ok r, s, runs⟩

/-- An emission whose error, if it has one, carries the count of its result. -/
def settled (e : Emission σ EmitResult) : Emission σ EmitResult :=
  e.bind fun r s runs => ⟨.ok ((EmitResult.done 0).andThen r), s, runs⟩

/-- The emission of nothing. -/
def nothing (s : σ) (runs : Runs) : Emission σ EmitResult := ⟨.ok (.done 0), s, runs⟩

/-- The emission of bytes. -/
def bytes (k : Sink σ) (data : Bytes) (s : σ) (runs : Runs) : Emission σ EmitResult :=
  let (outcome, s) := k.writeAll data s
  ⟨outcome, s, runs⟩

/-- The emission of bytes that may be none, which then are not written. -/
def someBytes (k : Sink σ) (data : Bytes) (s : σ) (runs : Runs) : Emission σ EmitResult :=
  if data.isEmpty then nothing s runs else bytes k data s runs

/-- The emission of bytes, or the fault in computing them. -/
def bytesOr (k : Sink σ) (data : Except Fault Bytes) (s : σ) (runs : Runs) :
    Emission σ EmitResult :=
  match data with
  | .ok data => bytes k data s runs
  | .error f => ⟨.error f, s, runs⟩

/-- The emission of a slot, followed by that of the fragment after it and of what comes then; after
the last slot comes none. -/
def thenFragment (e : Emission σ EmitResult) (k : Sink σ) (fragment : Option Bytes)
    (next : σ → Runs → Emission σ EmitResult) : Emission σ EmitResult :=
  match fragment with
  | none => e
  | some f => (e.followedBy fun s runs => bytes k f s runs).followedBy next

end Emission

section Values

variable [DigitLimit]

/-- The bytes of a value: byte strings as they are, all else as text, unless an integer in it has
too many digits. -/
def Value.printed (v : Value) (encoding : Encoding) : Except Fault Bytes :=
  match v with
  | .bytes b _ => .ok b
  | v =>
    match DigitLimit.exceeded? v.shownDigits with
    | some most => .error (.tooManyDigits most)
    | Option.none => encoding.encode v.display

/-- The bytes of a filled format; a number out of range is a fault, and any other cause an error,
which shows the values, unless an integer in them has too many digits. -/
def formatted (format : Points) (values : List Value) (encoding : Encoding) :
    Except Fault (Except EmitCause Bytes) :=
  match Format.render format values with
  | .ok text => (encoding.encode text).map .ok
  | .error cause =>
    if cause.isOverflow then .error (.format cause)
    else
      match DigitLimit.exceeded? (Value.mostDigits values) with
      | some most => .error (.tooManyDigits most)
      | none => .ok (.error (.format values format cause))

/-- The result that a script's return stands for. -/
def Returned.toResult : Returned → Except Fault EmitResult
  | .result r => .ok r
  | .value v =>
    match v.whole with
    | .ok n => .ok (.done n)
    | .error cause => .error (.notWhole cause)

/-- The result of a script: a refusal of the sink that it let through is an error. -/
def Emission.ofScript {σ : Type} (e : Emission σ Returned) : Emission σ EmitResult :=
  match e.outcome with
  | .ok returned => ⟨returned.toResult, e.sink, e.runs⟩
  | .error f =>
    ⟨if f.isRefusal then .ok (.stopped 0 (.refused f)) else .error f, e.sink, e.runs⟩

end Values

/-- The result of an emission through a sink that escapes, at its target. -/
def Emission.ofEscaping {σ : Type} (codec : Codec) (e : Emission (Escaping σ) EmitResult) :
    Emission σ EmitResult :=
  match e.outcome with
  | .ok said => ⟨e.sink.conclude codec said, e.sink.target, e.runs⟩
  | .error f => ⟨.error f, e.sink.target, e.runs⟩

/-- The emission of a slot without content: an error if the slot has a name. -/
def emitUnbound {σ : Type} (template : String) (name : Option String) (s : σ) (runs : Runs) :
    Emission σ EmitResult :=
  match name with
  | none => .nothing s runs
  | some name => ⟨.ok (.stopped 0 (.unbound name template)), s, runs⟩

variable [DigitLimit] {ω : Type}

mutual

/-- The emission of a tree of content. -/
def Tree.emit : {σ : Type} → Content ω Empty → Sink σ → σ → Runs → Emission σ EmitResult
  | _, .empty, _, s, runs => .nothing s runs
  | _, .data data, k, s, runs => .bytes k data s runs
  | _, .print value encoding, k, s, runs => .bytesOr k (value.printed encoding) s runs
  | _, .format format values encoding, k, s, runs =>
    match formatted format values encoding with
    | .ok (.ok data) => .bytes k data s runs
    | .ok (.error cause) => ⟨.ok (.stopped 0 cause), s, runs⟩
    | .error f => ⟨.error f, s, runs⟩
  | _, .generator label script, k, s, runs =>
    .ofScript (Script.run script k s (runs ++ label.toList))
  | _, .brackets before inner after, k, s, runs =>
    ((Emission.someBytes k before s runs).followedBy fun s runs => Tree.emit inner k s runs)
      |>.followedBy fun s runs => .someBytes k after s runs
  | _, .escaper escape encoding inner, k, s, runs =>
    match encoding.codec with
    | .ok codec =>
      .ofEscaping codec (Tree.emit inner (k.escaping escape codec) (.start codec s) runs)
    | .error f => ⟨.error f, s, runs⟩
  | _, .bound template bindings, k, s, runs =>
    emitSlots template 0 bindings k s runs
  | _, .shared ref, _, _, _ => nomatch ref
  termination_by structural _ c => c

/-- The run of a script. -/
def Script.run : {σ : Type} → Script ω Empty → Sink σ → σ → Runs → Emission σ Returned
  | _, .done returned, _, s, runs => ⟨.ok returned, s, runs⟩
  | _, .giveUp f, _, s, runs => ⟨.error f, s, runs⟩
  | _, .write data next, k, s, runs =>
    Script.run (next (k.write data s).1) k (k.write data s).2 runs
  | _, .emit content next, k, s, runs =>
    (Tree.emit content k s runs).bind fun r s runs => Script.run (next r) k s runs
  termination_by structural _ script => script

/-- The emission of a template's slots from `slot` on, with the given bindings: the content of each
slot, then the fragment after it.  A slot must have a place among the bindings. -/
def emitSlots : {σ : Type} → Template ω → (slot : Nat) →
    (bindings : List (Option (Content ω Empty))) → Sink σ → σ → Runs → Emission σ EmitResult
  | _, _, _, [], _, s, runs => ⟨.error .slotOutOfRange, s, runs⟩
  | _, t, slot, none :: rest, k, s, runs =>
    (emitUnbound t.name (t.nameAt slot) s runs).thenFragment k t.fragments[slot]?
      fun s runs => emitSlots t (slot + 1) rest k s runs
  | _, t, slot, some c :: rest, k, s, runs =>
    (Tree.emit c k s runs).settled.thenFragment k t.fragments[slot]?
      fun s runs => emitSlots t (slot + 1) rest k s runs
  termination_by structural _ _ _ bindings => bindings

end

/-- The bytes of a tree of content, or what stopped its emission; and the runs of scripts. -/
def Tree.render (c : Content ω Empty) (runs : Runs) : Except (Failure ω) Bytes × Runs :=
  let e := Tree.emit c Sink.buffer [] runs
  match e.outcome with
  | .error f => (.error (.fault f), e.runs)
  | .ok r =>
    match r.error with
    | some error => (.error (.emit error), e.runs)
    | none => (.ok e.sink, e.runs)

end Stencil
