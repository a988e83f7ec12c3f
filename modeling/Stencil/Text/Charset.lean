import Stencil.Text.Point
import Stencil.Text.Utf8

/-!
# Character sets

Three codes are written out: UTF-8, which has all characters, and the seven-bit and eight-bit codes,
which have the first 128 and 256 of them.

## Main definitions

* `Charset` — the three codes.
* `Charset.ofName?` — the code with a name.
* `Charset.encode`, `Charset.feed`, `Charset.finish` — writing and reading bytes.
* `Unencodable.message`, `Undecodable.message` — what is wrong, in words.

## Main results

* `Charset.encode_utf8` — UTF-8 has all characters.
-/

namespace Stencil

/-- A code that is written out. -/
inductive Charset where
  /-- UTF-8. -/
  | utf8
  /-- The first 256 characters, one byte each. -/
  | latin1
  /-- The first 128 characters, one byte each. -/
  | ascii
  deriving DecidableEq, Repr, Inhabited

/-- The name of a code in messages. -/
def Charset.name : Charset → String
  | .utf8 => "utf-8"
  | .latin1 => "latin-1"
  | .ascii => "ascii"

/-- The code with a name, in any letter case and with either dash. -/
def Charset.ofName? (name : String) : Option Charset :=
  let name := String.ofList (name.toList.map fun c => if c = '_' then '-' else c.toLower)
  if name = "utf-8" ∨ name = "utf8" then some .utf8
  else if name = "latin-1" ∨ name = "latin1" ∨ name = "iso-8859-1" then some .latin1
  else if name = "ascii" ∨ name = "us-ascii" then some .ascii
  else none

/-- How many characters a code has, counted from the first; `none` for all. -/
def Charset.limit? : Charset → Option Nat
  | .utf8 => none
  | .latin1 => some 256
  | .ascii => some 128

/-- The characters that a code lacks: those from `start` to before `stop`, the first of which is
`code`. -/
structure Unencodable where
  /-- The first missing code point. -/
  code : Point
  /-- Where the missing characters start. -/
  start : Nat
  /-- Where they end. -/
  stop : Nat
  deriving DecidableEq, Repr

/-- The first run of code points of a kind, if there is one. -/
def firstRun? (kind : Point → Bool) (s : Points) : Option Unencodable :=
  let before := s.takeWhile fun p => !kind p
  match s.drop before.length with
  | [] => none
  | code :: rest =>
    let run := rest.takeWhile kind
    some ⟨code, before.length, before.length + 1 + run.length⟩

/-- Whether a code lacks a code point. -/
def Charset.lacks (k : Charset) (p : Point) : Bool :=
  match k.limit? with
  | none => p.isHalf
  | some limit => decide (limit ≤ p.val)

/-- The bytes of a code point that a code has. -/
def Charset.pointBytes (k : Charset) (p : Point) : Bytes :=
  match k with
  | .utf8 => Utf8.encodeChar (Char.ofNat p.val)
  | _ => [p.val.toUInt8]

/-- The bytes of a text in a code. -/
def Charset.encode (k : Charset) (s : Points) : Except Unencodable Bytes :=
  match firstRun? k.lacks s with
  | some e => .error e
  | none => .ok (s.flatMap k.pointBytes)

theorem firstRun?_eq_none {kind : Point → Bool} {s : Points} (h : ∀ p ∈ s, kind p = false) :
    firstRun? kind s = none := by
  have hbefore : (s.takeWhile fun p => !kind p) = s := by
    have hpos : ∀ p ∈ s, (!kind p) = true := fun p hp => by rw [h p hp]; rfl
    simpa using @List.takeWhile_append_of_pos _ (fun p => !kind p) s [] hpos
  simp only [firstRun?, hbefore, List.drop_length]

/-- UTF-8 has all characters. -/
@[simp] theorem Charset.encode_utf8 (s : List Char) :
    Charset.utf8.encode (Points.ofChars s) = .ok (Utf8.encode s) := by
  have hnone : firstRun? Charset.utf8.lacks (Points.ofChars s) = none := by
    refine firstRun?_eq_none fun p hp => ?_
    obtain ⟨c, -, rfl⟩ := List.mem_map.1 hp
    exact Point.isHalf_ofChar c
  have hbytes (cs : List Char) :
      (Points.ofChars cs).flatMap Charset.utf8.pointBytes = Utf8.encode cs := by
    induction cs with
    | nil => rfl
    | cons c cs ih =>
      rw [Points.ofChars_cons, List.flatMap_cons, ih, Utf8.encode_cons, pointBytes,
        Point.val_ofChar, Char.ofNat_toNat]
  rw [Charset.encode, hnone, hbytes]

/-- The characters of bytes that are below `limit`, one each. -/
def singleBytes (limit : Nat) : Nat → Bytes → Except Undecodable (List Char)
  | _, [] => .ok []
  | start, b :: bs =>
    if b.toNat < limit then (singleBytes limit (start + 1) bs).map (Char.ofNat b.toNat :: ·)
    else .error ⟨b, start, start + 1, .range⟩

/-- The characters completed by the kept bytes and the new ones, and the bytes then kept. -/
def Charset.feed (k : Charset) (kept new : Bytes) : Except Undecodable (List Char × Bytes) :=
  match k.limit? with
  | none => Utf8.feed kept new
  | some limit => (singleBytes limit 0 new).map (·, [])

/-- The check that no bytes are left at the end. -/
def Charset.finish (k : Charset) (kept : Bytes) : Except Undecodable Unit :=
  match k with
  | .utf8 => Utf8.finish kept
  | _ => .ok ()

/-- The text of a whole byte string. -/
def Charset.decode (k : Charset) (bytes : Bytes) : Except Undecodable (List Char) :=
  match k.feed [] bytes with
  | .error e => .error e
  | .ok (text, kept) =>
    match k.finish kept with
    | .ok () => .ok text
    | .error e =>
      -- the bytes left over are the last ones
      let start := bytes.length - kept.length
      .error { e with start := e.start + start, stop := e.stop + start }

/-! ### Messages -/

/-- The reason in words. -/
def Undecodable.Reason.message : Undecodable.Reason → String
  | .start => "invalid start byte"
  | .continuation => "invalid continuation byte"
  | .incomplete => "unexpected end of data"
  | .range => "ordinal not in range(128)"

/-- What is wrong with the bytes, in words. -/
def Undecodable.message (k : Charset) (e : Undecodable) : String :=
  if e.stop = e.start + 1 then
    s!"'{k.name}' codec can't decode byte 0x{String.ofList (Text.hex 2 e.byte.toNat)} in position {e.start}: {e.reason.message}"
  else
    s!"'{k.name}' codec can't decode bytes in position {e.start}-{e.stop - 1}: {e.reason.message}"

/-- What is wrong with the characters, in words. -/
def Unencodable.message (k : Charset) (e : Unencodable) : String :=
  let range := match k.limit? with
    | some limit => s!"ordinal not in range({limit})"
    | none => "surrogates not allowed"
  if e.stop = e.start + 1 then
    s!"'{k.name}' codec can't encode character '{String.ofList e.code.escaped}' in position {e.start}: {range}"
  else
    s!"'{k.name}' codec can't encode characters in position {e.start}-{e.stop - 1}: {range}"

end Stencil
