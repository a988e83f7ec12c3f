import Stencil.Failure

/-!
# Sinks

A sink takes bytes.  It has a state, and answers each write with the number of bytes it took, with
the word that it took all, or with a fault.  `Sink.writeAll` writes a byte string by as many writes
as it needs, and says how many bytes were taken and what stopped it.

## Main definitions

* `WriteOutcome` — the answer to a write.
* `Sink` — a sink with states in `σ`.
* `EmitResult` — how many bytes an emission brought to the sink, and its error, if it has one.
* `EmitResult.andThen` — the result of two emissions, one after the other.
* `Sink.writeAll` — a whole byte string written.
* `Sink.buffer` — the sink that takes all.
-/

namespace Stencil

/-- The answer of a sink to a write. -/
inductive WriteOutcome where
  /-- That many bytes were taken. -/
  | took (count : Int)
  /-- All bytes were taken. -/
  | tookAll
  /-- The sink gave up. -/
  | gaveUp (f : Fault)
  deriving DecidableEq, Repr

/-- A sink with states in `σ`. -/
structure Sink (σ : Type) where
  /-- The answer to a write and the state after it. -/
  write : Bytes → σ → WriteOutcome × σ

/-- How an emission ended. -/
structure EmitResult where
  /-- How many bytes reached the sink. -/
  count : Int
  /-- What stopped the emission, if it was stopped. -/
  error : Option EmitError
  deriving Repr

namespace EmitResult

/-- The emission of `count` bytes that was not stopped. -/
def done (count : Int) : EmitResult := ⟨count, none⟩

/-- The emission that was stopped by `cause` after `count` bytes. -/
def stopped (count : Int) (cause : EmitCause) : EmitResult := ⟨count, some ⟨cause, count⟩⟩

/-- The emission that was stopped by an error, the count of which is set to `count`. -/
def failed (count : Int) (e : EmitError) : EmitResult := ⟨count, some { e with count }⟩

/-- Whether the emission was not stopped. -/
def isOk (r : EmitResult) : Bool := r.error.isNone

/-- The result of an emission after one that was not stopped: the counts are added, and an error
carries their sum. -/
def andThen (r next : EmitResult) : EmitResult :=
  match next.error with
  | none => done (r.count + next.count)
  | some e => failed (r.count + next.count) e

/-- The count, or the error. -/
def unwrap (r : EmitResult) : Except EmitError Int :=
  match r.error with
  | none => .ok r.count
  | some e => .error e

@[simp] theorem count_done (n : Int) : (done n).count = n := rfl

@[simp] theorem error_done (n : Int) : (done n).error = none := rfl

@[simp] theorem isOk_done (n : Int) : (done n).isOk = true := rfl

@[simp] theorem count_failed (n : Int) (e : EmitError) : (failed n e).count = n := rfl

@[simp] theorem isOk_failed (n : Int) (e : EmitError) : (failed n e).isOk = false := rfl

@[simp] theorem count_stopped (n : Int) (c : EmitCause) : (stopped n c).count = n := rfl

@[simp] theorem isOk_stopped (n : Int) (c : EmitCause) : (stopped n c).isOk = false := rfl

@[simp] theorem count_andThen (r next : EmitResult) :
    (r.andThen next).count = r.count + next.count := by
  unfold andThen; split <;> rfl

end EmitResult

namespace Sink

variable {σ : Type}

/-- Write `rest`, the end of `size` bytes of which `count` were taken, by at most `fuel` writes. -/
def writeRest (k : Sink σ) (size : Nat) :
    (fuel : Nat) → (count : Int) → (rest : Bytes) → σ → Except Fault EmitResult × σ
  | 0, count, _, s => (.ok (.done count), s)
  | _ + 1, count, [], s => (.ok (.done count), s)
  | fuel + 1, count, b :: rest, s =>
    match k.write (b :: rest) s with
    -- this answer is for the whole byte string, whatever was taken before
    | (.tookAll, s) => (.ok (.done size), s)
    | (.gaveUp f, s) =>
      (if f.isRefusal then .ok (.stopped count (.refused f)) else .error f, s)
    | (.took n, s) =>
      if n ≤ 0 then (.ok (.stopped count (.refused (.shortWrite count size))), s)
      else writeRest k size fuel (count + n) ((b :: rest).drop n.toNat) s

/-- Write a byte string until all of it is taken or the sink makes no progress.  A refusal of the
sink ends in a result, any other fault is passed on. -/
def writeAll (k : Sink σ) (data : Bytes) (s : σ) : Except Fault EmitResult × σ :=
  k.writeRest data.length data.length 0 data s

@[simp] theorem writeAll_nil (k : Sink σ) (s : σ) : k.writeAll [] s = (.ok (.done 0), s) := rfl

/-- The sink that takes all bytes, and whose state is the bytes it took. -/
def buffer : Sink Bytes := ⟨fun data held => (.took data.length, held ++ data)⟩

end Sink

end Stencil
