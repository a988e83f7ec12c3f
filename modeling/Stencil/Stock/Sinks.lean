import Stencil.Content.Sink

/-!
# Sinks that record

A recording sink keeps the bytes it took and the length of every write it was asked for.  It may
have a limit and one of several ways to behave at it, so that emission can be watched against sinks
that take little, take nothing, or misreport what they took.

## Main definitions

* `Recording` — what a recording sink keeps.
* `SinkStyle`, `SinkStyle.sink` — the ways to behave, and the sinks that do.
-/

namespace Stencil

/-- What a recording sink keeps. -/
structure Recording where
  /-- The bytes it took. -/
  held : Bytes
  /-- The lengths of the writes, in order. -/
  writes : List Nat
  deriving DecidableEq, Repr, Inhabited

/-- The record before the first write. -/
def Recording.empty : Recording := ⟨[], []⟩

/-- The record with bytes taken. -/
def Recording.take (r : Recording) (data : Bytes) : Recording := { r with held := r.held ++ data }

/-- How a recording sink behaves. -/
inductive SinkStyle where
  /-- It takes all and answers with the number. -/
  | buffer
  /-- It takes all and says so. -/
  | silent
  /-- It holds that many bytes and then fails. -/
  | limited (size : Nat)
  /-- It takes that many bytes at each write. -/
  | short (size : Nat)
  /-- It holds that many bytes and then takes none. -/
  | stalling (size : Nat)
  /-- It takes all and answers with that number. -/
  | answering (count : Int)
  /-- It takes all and answers with so many more. -/
  | exaggerating (excess : Int)
  /-- It gives up when it would hold more than that many bytes. -/
  | guarded (size : Nat) (f : Fault)
  /-- It is closed. -/
  | closed
  deriving DecidableEq, Repr

namespace SinkStyle

/-- The failure of a sink that is full. -/
def full : Fault := .raised .system "sink full"

/-- The failure of a sink that is closed. -/
def notOpen : Fault := .raised .value "I/O operation on closed file."

/-- Take as much as fits, and answer with the number. -/
def takeUpTo (size : Nat) (data : Bytes) (r : Recording) : WriteOutcome × Recording :=
  (.took (data.take size).length, r.take (data.take size))

/-- The answer to a write after its length is recorded. -/
def answer (style : SinkStyle) (data : Bytes) (r : Recording) : WriteOutcome × Recording :=
  match style with
  | buffer => (.took data.length, r.take data)
  | silent => (.tookAll, r.take data)
  | limited size =>
    if size ≤ r.held.length then (.gaveUp full, r) else takeUpTo (size - r.held.length) data r
  | short size => takeUpTo size data r
  | stalling size => takeUpTo (size - r.held.length) data r
  | answering count => (.took count, r.take data)
  | exaggerating excess => (.took (data.length + excess), r.take data)
  | guarded size f =>
    if size < r.held.length + data.length then (.gaveUp f, r) else (.took data.length, r.take data)
  | closed => (.gaveUp notOpen, r)

/-- The sink that behaves in a given way. -/
def sink (style : SinkStyle) : Sink Recording :=
  ⟨fun data r => style.answer data { r with writes := r.writes ++ [data.length] }⟩

end SinkStyle

end Stencil
