import Stencil.Text.Bytes

/-!
# UTF-8

A character is one to four bytes.  The decoder reads byte by byte and keeps the bytes of a character
that is not complete, so where a byte string is divided makes no difference to the text.

A byte that cannot continue the kept ones is an error.  The pair of bytes that would open a
surrogate is kept as if it could be continued, and refused at the next byte or at the end.

## Main definitions

* `Utf8.encode` — the bytes of a text.
* `Utf8.classify` — what the bytes of one character amount to so far.
* `Utf8.feed` — the characters that kept and new bytes complete, and the bytes left over.
* `Utf8.finish` — the check that no bytes are left over.
-/

namespace Stencil

/-- Why bytes are no text. -/
inductive Undecodable.Reason where
  /-- The byte starts no character. -/
  | start
  /-- The byte does not continue the character before it. -/
  | continuation
  /-- The bytes end inside a character. -/
  | incomplete
  /-- The byte is no character of a seven-bit code. -/
  | range
  deriving DecidableEq, Repr, Inhabited

/-- The bytes that are no text: those from `start` to before `stop`, the first of which is
`byte`. -/
structure Undecodable where
  /-- The first byte at fault. -/
  byte : UInt8
  /-- Where the bytes at fault start. -/
  start : Nat
  /-- Where they end. -/
  stop : Nat
  /-- What is wrong with them. -/
  reason : Undecodable.Reason
  deriving DecidableEq, Repr, Inhabited

namespace Utf8

/-- The bytes of a character. -/
def encodeChar (c : Char) : Bytes :=
  let n := c.toNat
  if n < 0x80 then [n.toUInt8]
  else if n < 0x800 then [(0xC0 + n / 0x40).toUInt8, (0x80 + n % 0x40).toUInt8]
  else if n < 0x10000 then
    [(0xE0 + n / 0x1000).toUInt8, (0x80 + n / 0x40 % 0x40).toUInt8, (0x80 + n % 0x40).toUInt8]
  else
    [(0xF0 + n / 0x40000).toUInt8, (0x80 + n / 0x1000 % 0x40).toUInt8,
      (0x80 + n / 0x40 % 0x40).toUInt8, (0x80 + n % 0x40).toUInt8]

/-- The bytes of a text. -/
def encode (s : List Char) : Bytes := s.flatMap encodeChar

@[simp] theorem encode_nil : encode [] = [] := rfl

@[simp] theorem encode_cons (c : Char) (s : List Char) :
    encode (c :: s) = encodeChar c ++ encode s := rfl

@[simp] theorem encode_append (s t : List Char) : encode (s ++ t) = encode s ++ encode t := by
  simp [encode]

/-- What the bytes of one character amount to. -/
inductive Piece where
  /-- They are this character. -/
  | complete (c : Char)
  /-- More bytes are needed. -/
  | partly
  /-- No character starts so; the first `length` bytes are at fault. -/
  | invalid (length : Nat) (reason : Undecodable.Reason)
  deriving DecidableEq, Repr

/-- Whether a byte may follow the first byte of a character. -/
def isTail (b : UInt8) : Bool := decide (0x80 ≤ b.toNat ∧ b.toNat < 0xC0)

/-- The least second byte after the first byte `a` of three or four. -/
def secondMin (a : UInt8) : Nat := if a = 0xE0 then 0xA0 else if a = 0xF0 then 0x90 else 0x80

/-- The end of the second bytes after the first byte `a` of three or four. -/
def secondEnd (a : UInt8) : Nat := if a = 0xED then 0xA0 else if a = 0xF4 then 0x90 else 0xC0

/-- Whether the bytes would open a surrogate, which is no character. -/
def opensSurrogate (a b : UInt8) : Bool := a == 0xED && decide (0xA0 ≤ b.toNat ∧ b.toNat < 0xC0)

/-- What the bytes amount to, when all but the last of them are a part of a character. -/
def classify : Bytes → Piece
  | [a] =>
    if a.toNat < 0x80 then .complete (Char.ofNat a.toNat)
    else if 0xC2 ≤ a.toNat ∧ a.toNat < 0xF5 then .partly
    else .invalid 1 .start
  | [a, b] =>
    if a.toNat < 0xE0 then
      if isTail b then .complete (Char.ofNat ((a.toNat - 0xC0) * 0x40 + (b.toNat - 0x80)))
      else .invalid 1 .continuation
    else if secondMin a ≤ b.toNat ∧ b.toNat < secondEnd a then .partly
    else if opensSurrogate a b then .partly
    else .invalid 1 .continuation
  | [a, b, c] =>
    -- the pair was kept before, and is refused only now
    if opensSurrogate a b then .invalid 1 .continuation
    else if !isTail c then .invalid 2 .continuation
    else if a.toNat < 0xF0 then
      .complete (Char.ofNat
        ((a.toNat - 0xE0) * 0x1000 + (b.toNat - 0x80) * 0x40 + (c.toNat - 0x80)))
    else .partly
  | [a, b, c, d] =>
    if isTail d then
      .complete (Char.ofNat ((a.toNat - 0xF0) * 0x40000 + (b.toNat - 0x80) * 0x1000 +
        (c.toNat - 0x80) * 0x40 + (d.toNat - 0x80)))
    else .invalid 3 .continuation
  | _ => .invalid 1 .start

/-- The bytes at fault when a piece that starts at `start` is invalid. -/
def fault (piece : Bytes) (start length : Nat) (reason : Undecodable.Reason) : Undecodable :=
  ⟨piece.headD 0, start, start + length, reason⟩

/-- The characters completed by the kept bytes and the new ones, and the bytes then kept.
`start` counts the bytes before the kept ones. -/
def feedFrom (start : Nat) (kept : Bytes) : Bytes → Except Undecodable (List Char × Bytes)
  | [] => .ok ([], kept)
  | b :: bs =>
    match classify (kept ++ [b]) with
    | .complete c =>
      match feedFrom (start + kept.length + 1) [] bs with
      | .ok (text, left) => .ok (c :: text, left)
      | .error e => .error e
    | .partly => feedFrom start (kept ++ [b]) bs
    | .invalid length reason => .error (fault (kept ++ [b]) start length reason)

/-- The characters completed by the kept bytes and the new ones, and the bytes then kept. -/
def feed (kept new : Bytes) : Except Undecodable (List Char × Bytes) := feedFrom 0 kept new

@[simp] theorem feedFrom_nil (start : Nat) (kept : Bytes) :
    feedFrom start kept [] = .ok ([], kept) := rfl

/-- The check that no bytes are left at the end. -/
def finish : Bytes → Except Undecodable Unit
  | [] => .ok ()
  | [a, b] =>
    if opensSurrogate a b then .error ⟨a, 0, 1, .continuation⟩ else .error ⟨a, 0, 2, .incomplete⟩
  | a :: rest => .error ⟨a, 0, rest.length + 1, .incomplete⟩

end Utf8

end Stencil
