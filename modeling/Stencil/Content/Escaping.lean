import Stencil.Content.Basic

/-!
# Sinks that escape

Content is escaped on its way by a sink in front of another one.  That sink reads the bytes it gets
as text by a codec, escapes the text and writes it on.  What the codec knows of a character that is
not complete is kept for the next write.  To the content every write seems to be taken whole, unless
it cannot be read or cannot be written on.

The sink counts the bytes that reached its target and remembers the last error there; these two, and
not what the content says, make the result.

## Main definitions

* `Escaping` — the state of the sink.
* `Sink.escaping` — the sink.
* `Escaping.conclude` — the result of an emission through it.
-/

namespace Stencil

/-- The state of a sink that escapes, in front of a target with states in `σ`. -/
structure Escaping (σ : Type) where
  /-- The state of the target. -/
  target : σ
  /-- What the codec knows of what it read. -/
  reading : Codec.State
  /-- How many bytes reached the target. -/
  forwarded : Int
  /-- The last error at the target. -/
  failure : Option EmitError

namespace Escaping

variable {σ : Type}

/-- The state before the first write. -/
def start (codec : Codec) (target : σ) : Escaping σ := ⟨target, codec.start, 0, none⟩

/-- The state after `e` stopped a write of `count` bytes, and the answer to it. -/
def stop (st : Escaping σ) (target : σ) (count : Int) (e : EmitError) :
    WriteOutcome × Escaping σ :=
  (.gaveUp (.relayed e.message), { st with
    target, forwarded := st.forwarded + count, failure := some e })

/-- Escape a text and write it on, in answer to a write of `size` bytes. -/
def forward (k : Sink σ) (escape : Escape) (codec : Codec) (size : Nat) (text : Points)
    (st : Escaping σ) : WriteOutcome × Escaping σ :=
  match escape.run text with
  | .error f => (.gaveUp f, st)
  | .ok escaped =>
    match codec.encode escaped with
    | .error f => (.gaveUp f, st)
    | .ok bytes =>
      match k.writeAll bytes st.target with
      | (.error f, target) => (.gaveUp f, { st with target })
      | (.ok ⟨count, none⟩, target) =>
        (.took size, { st with target, forwarded := st.forwarded + count })
      | (.ok ⟨count, some e⟩, target) => st.stop target count e

/-- Answer a write: read the bytes, and write on the text, if there is any. -/
def write (k : Sink σ) (escape : Escape) (codec : Codec) (data : Bytes) (st : Escaping σ) :
    WriteOutcome × Escaping σ :=
  match codec.feed st.reading data with
  | (.error f, reading) => (.gaveUp f, { st with reading })
  -- no character is complete, so nothing is written on
  | (.ok [], reading) => (.took data.length, { st with reading })
  | (.ok (p :: text), reading) =>
    forward k escape codec data.length (p :: text) { st with reading }

/-- The result of an emission through the sink, of which the content says `said`. -/
def conclude (codec : Codec) (said : EmitResult) (st : Escaping σ) : Except Fault EmitResult :=
  -- the error at the target comes first; the content may not have told of it
  match st.failure, said.error with
  | some e, _ => .ok (.failed st.forwarded e)
  | none, some e => .ok (.failed st.forwarded e)
  | none, none =>
    match codec.finish st.reading with
    | .ok () => .ok (.done st.forwarded)
    | .error f =>
      if f.kind.isOfValue then .ok (.stopped st.forwarded (.refused f)) else .error f

end Escaping

/-- The sink that escapes what it gets and writes it to `k`. -/
def Sink.escaping {σ : Type} (k : Sink σ) (escape : Escape) (codec : Codec) : Sink (Escaping σ) :=
  ⟨Escaping.write k escape codec⟩

end Stencil
