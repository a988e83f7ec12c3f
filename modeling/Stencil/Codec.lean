import Stencil.Fault

/-!
# Codecs

A codec turns texts into bytes, all at once, and bytes into texts, all at once or in parts.  Read in
parts, the bytes of a character may come one after the other; what the reader knows in between is
some bytes and a number.  Which codecs there are is left open; those of the character sets that are
written out are three of them.

An encoding is asked for by a name, which need not be that of a codec.

## Main definitions

* `Codec`, `Codec.State` — the codecs, and what they know between two parts.
* `Codec.IsStrict` — a codec that only gives up for texts and bytes that do not fit it.
* `Charset.codec` — the codec of a character set.
* `Encoding` — an encoding by name.
* `Encoding.encode`, `Encoding.decode` — writing and reading by it.

## Main results

* `Charset.isStrict_codec` — the codecs that are written out are strict.
-/

namespace Stencil

/-- What a codec knows between two parts of what it reads. -/
structure Codec.State where
  /-- The bytes that are read but complete no character. -/
  kept : Bytes
  /-- What else there is to know, as a number. -/
  mode : Nat
  deriving DecidableEq, Repr, Inhabited

/-- A codec. -/
structure Codec where
  /-- The bytes of a text. -/
  encode : Points → Except Fault Bytes
  /-- The text of a whole byte string. -/
  decode : Bytes → Except Fault String
  /-- What is known before the first part. -/
  start : Codec.State
  /-- The text that a part completes, and what is known after it. -/
  feed : Codec.State → Bytes → Except Fault Points × Codec.State
  /-- The check that nothing is left over after the last part. -/
  finish : Codec.State → Except Fault Unit

/-- A codec is strict if it gives up by faults about values only: texts that it lacks and bytes that
are no text of it are such. -/
structure Codec.IsStrict (k : Codec) : Prop where
  /-- Writing gives up so. -/
  encode : ∀ s f, k.encode s = .error f → f.kind.isOfValue = true
  /-- So does reading a part. -/
  feed : ∀ st bytes f, (k.feed st bytes).1 = .error f → f.kind.isOfValue = true
  /-- So does the end of reading. -/
  finish : ∀ st f, k.finish st = .error f → f.kind.isOfValue = true

namespace Charset

/-- The codec of a character set. -/
def codec (k : Charset) : Codec where
  encode s :=
    match k.encode s with
    | .ok bytes => .ok bytes
    | .error cause => .error (.unencodable k cause)
  decode bytes :=
    match k.decode bytes with
    | .ok s => .ok (String.ofList s)
    | .error cause => .error (.undecodable k cause)
  start := ⟨[], 0⟩
  feed st bytes :=
    match k.feed st.kept bytes with
    | .ok (s, kept) => (.ok (.ofChars s), { st with kept })
    | .error cause => (.error (.undecodable k cause), st)
  finish st :=
    match k.finish st.kept with
    | .ok () => .ok ()
    | .error cause => .error (.undecodable k cause)

/-- The codecs that are written out are strict. -/
theorem isStrict_codec (k : Charset) : k.codec.IsStrict where
  encode s f h := by
    simp only [codec] at h
    split at h
    · cases h
    · cases h
      rfl
  feed st bytes f h := by
    simp only [codec] at h
    split at h
    · cases h
    · cases h
      rfl
  finish st f h := by
    simp only [codec] at h
    split at h
    · cases h
    · cases h
      rfl

end Charset

/-- The codec of UTF-8. -/
def Codec.utf8 : Codec := Charset.utf8.codec

/-- UTF-8 has all characters. -/
@[simp] theorem Codec.encode_utf8 (s : List Char) :
    Codec.utf8.encode (.ofChars s) = .ok (Utf8.encode s) := by
  simp only [Codec.utf8, Charset.codec, Charset.encode_utf8]

/-! ### Encodings -/

/-- An encoding. -/
structure Encoding where
  /-- The name it is asked for by. -/
  name : String
  /-- The codec with that name, if there is one. -/
  codec? : Option Codec

namespace Encoding

/-- The encoding used where none is asked for. -/
def standard : Encoding := ⟨"utf-8", some .utf8⟩

/-- The encoding with the name of a character set, or another name, which is that of no codec. -/
def named (name : String) : Encoding := ⟨name, (Charset.ofName? name).map Charset.codec⟩

/-- The codec that is asked for. -/
def codec (e : Encoding) : Except Fault Codec :=
  match e.codec? with
  | some k => .ok k
  | none => .error (.unknownEncoding e.name)

@[simp] theorem codec_standard : standard.codec = .ok .utf8 := rfl

/-- The bytes of a text. -/
def encode (e : Encoding) (s : Points) : Except Fault Bytes :=
  match e.codec with
  | .error f => .error f
  | .ok k => k.encode s

/-- The text of a byte string; that of no bytes is empty in any encoding. -/
def decode (e : Encoding) (bytes : Bytes) : Except Fault String :=
  if bytes.isEmpty then .ok ""
  else
    match e.codec with
    | .error f => .error f
    | .ok k => k.decode bytes

end Encoding

end Stencil
