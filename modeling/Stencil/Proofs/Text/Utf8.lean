import Stencil.Source.File

/-!
# Texts in pieces

The decoder is fed byte by byte, and keeps the bytes of a character that is not complete.  So it
makes the same of bytes however they are divided into pieces, and it reads exactly the bytes of
texts: what it has completed is encoded by the bytes before those it keeps.

## Main definitions

* `Utf8.read` — what the decoder makes of bytes, without the cause if it stops.
* `Utf8.Kept` — the bytes that it may keep.

## Main results

* `Utf8.read_append` — bytes may be read in two parts.
* `Utf8.read_encode` — the bytes of a text are read as that text.
* `Utf8.eq_encode_of_read` — what is read as a text is the bytes of that text.
* `Utf8.readPieces_eq_none_iff` — pieces are read to their end if together they are a text.
* `Utf8.isPrefix_of_readPieces` — what was read of pieces is encoded by their first bytes.
-/

namespace Stencil
namespace Utf8

variable {kept new left : Bytes} {text : List Char} {a b c : UInt8}

/-! ### Reading -/

/-- The characters completed by the kept bytes and the new ones, and the bytes then kept; nothing if
some bytes are at fault. -/
def read (kept : Bytes) : Bytes → Option (List Char × Bytes)
  | [] => some ([], kept)
  | b :: bs =>
    match classify (kept ++ [b]) with
    | .complete c => (read [] bs).map fun r => (c :: r.1, r.2)
    | .partly => read (kept ++ [b]) bs
    | .invalid _ _ => none

@[simp] theorem read_nil (kept : Bytes) : read kept [] = some ([], kept) := rfl

theorem read_of_complete (kept : Bytes) {c : Char} (h : classify (kept ++ [b]) = .complete c)
    (bs : Bytes) :
    read kept (b :: bs) = (read [] bs).map fun r => (c :: r.1, r.2) := by
  rw [read, h]

theorem read_of_partly (kept : Bytes) (h : classify (kept ++ [b]) = .partly) (bs : Bytes) :
    read kept (b :: bs) = read (kept ++ [b]) bs := by
  rw [read, h]

/-- The decoder reads, whatever it counts as the start. -/
theorem toOption_feedFrom (new : Bytes) : ∀ (start : Nat) (kept : Bytes),
    (feedFrom start kept new).toOption = read kept new := by
  induction new with
  | nil => exact fun _ _ => rfl
  | cons b bs ih =>
    intro start kept
    unfold feedFrom read
    cases classify (kept ++ [b]) with
    | complete c =>
      dsimp only
      rw [← ih (start + kept.length + 1)]
      cases feedFrom (start + kept.length + 1) [] bs <;> rfl
    | partly => exact ih _ _
    | invalid length reason => rfl

theorem toOption_feed (kept new : Bytes) : (feed kept new).toOption = read kept new :=
  toOption_feedFrom new 0 kept

/-- Bytes may be read in two parts. -/
theorem read_append (new more : Bytes) : ∀ kept : Bytes,
    read kept (new ++ more) =
      (read kept new).bind fun r => (read r.2 more).map fun r' => (r.1 ++ r'.1, r'.2) := by
  induction new with
  | nil => exact fun kept => by simp
  | cons b bs ih =>
    intro kept
    rw [List.cons_append, read, read]
    cases classify (kept ++ [b]) with
    | complete c =>
      dsimp only
      rw [ih]
      cases read [] bs with
      | none => rfl
      | some r =>
        simp only [Option.bind_some, Option.map_some]
        cases read r.2 more <;> rfl
    | partly => exact ih _
    | invalid length reason => rfl

/-! ### The bytes of texts are read -/

theorem toNat_toUInt8 {n : Nat} (h : n < 0x100) : n.toUInt8.toNat = n :=
  UInt8.toNat_ofNat_of_lt' h

/-- What the second byte of three or four may be: the bounds leave out long forms and surrogates. -/
theorem second_iff : secondMin a ≤ b.toNat ∧ b.toNat < secondEnd a ↔
    (0x80 ≤ b.toNat ∧ b.toNat < 0xC0) ∧
      (a.toNat = 0xE0 → 0xA0 ≤ b.toNat) ∧ (a.toNat = 0xF0 → 0x90 ≤ b.toNat) ∧
      (a.toNat = 0xED → b.toNat < 0xA0) ∧ (a.toNat = 0xF4 → b.toNat < 0x90) := by
  simp only [secondMin, secondEnd, ← UInt8.toNat_inj, UInt8.toNat_ofNat]
  split <;> (try split) <;> (try split) <;> (try split) <;> omega

theorem isTail_iff : isTail b = true ↔ 0x80 ≤ b.toNat ∧ b.toNat < 0xC0 := by
  simp [isTail]

theorem opensSurrogate_iff : opensSurrogate a b = true ↔
    a.toNat = 0xED ∧ 0xA0 ≤ b.toNat ∧ b.toNat < 0xC0 := by
  simp [opensSurrogate, ← UInt8.toNat_inj]

theorem classify_first_partly (h : 0xC2 ≤ a.toNat) (h' : a.toNat < 0xF5) :
    classify [a] = .partly := by
  rw [classify, if_neg (by omega), if_pos ⟨h, h'⟩]

theorem classify_second_partly (h : 0xE0 ≤ a.toNat)
    (hb : secondMin a ≤ b.toNat ∧ b.toNat < secondEnd a) : classify [a, b] = .partly := by
  rw [classify, if_neg (by omega), if_pos hb]

theorem not_opensSurrogate (hb : secondMin a ≤ b.toNat ∧ b.toNat < secondEnd a) :
    ¬ opensSurrogate a b = true := by
  obtain ⟨-, -, -, hend, -⟩ := second_iff.1 hb
  rw [opensSurrogate_iff]
  rintro ⟨ha, hmin, -⟩
  have hlt := hend ha
  omega

/-- The bytes of a character are read as that character. -/
theorem read_encodeChar (c : Char) (bs : Bytes) :
    read [] (encodeChar c ++ bs) = (read [] bs).map fun r => (c :: r.1, r.2) := by
  have hvalid : c.toNat < 0xD800 ∨ 0xDFFF < c.toNat ∧ c.toNat < 0x110000 := c.valid
  have hchar : Char.ofNat c.toNat = c := Char.ofNat_toNat c
  unfold encodeChar
  generalize c.toNat = n at hvalid hchar ⊢
  dsimp only
  split
  · next h =>
    have ha := toNat_toUInt8 (n := n) (by omega)
    have hlast : classify [n.toUInt8] = .complete c := by
      rw [classify, ha, if_pos h, hchar]
    exact read_of_complete [] hlast bs
  split
  · next h h' =>
    have ha := toNat_toUInt8 (n := 0xC0 + n / 0x40) (by omega)
    have hb := toNat_toUInt8 (n := 0x80 + n % 0x40) (by omega)
    generalize (0xC0 + n / 0x40).toUInt8 = a at ha ⊢
    generalize (0x80 + n % 0x40).toUInt8 = b at hb ⊢
    have hlast : classify [a, b] = .complete c := by
      have hn : (a.toNat - 0xC0) * 0x40 + (b.toNat - 0x80) = n := by omega
      rw [classify, if_pos (by omega), if_pos (isTail_iff.2 (by omega)), hn, hchar]
    exact (read_of_partly [] (classify_first_partly (by omega) (by omega)) _).trans
      (read_of_complete [a] hlast bs)
  split
  · next h h' h'' =>
    have ha := toNat_toUInt8 (n := 0xE0 + n / 0x1000) (by omega)
    have hb := toNat_toUInt8 (n := 0x80 + n / 0x40 % 0x40) (by omega)
    have hc := toNat_toUInt8 (n := 0x80 + n % 0x40) (by omega)
    generalize (0xE0 + n / 0x1000).toUInt8 = a at ha ⊢
    generalize (0x80 + n / 0x40 % 0x40).toUInt8 = b at hb ⊢
    generalize (0x80 + n % 0x40).toUInt8 = c' at hc ⊢
    have hsecond : secondMin a ≤ b.toNat ∧ b.toNat < secondEnd a := second_iff.2 (by omega)
    have hlast : classify [a, b, c'] = .complete c := by
      have hn : (a.toNat - 0xE0) * 0x1000 + (b.toNat - 0x80) * 0x40 + (c'.toNat - 0x80) = n := by
        omega
      have htail : isTail c' = true := isTail_iff.2 (by omega)
      rw [classify, if_neg (not_opensSurrogate hsecond), htail, if_neg (by decide),
        if_pos (by omega), hn, hchar]
    exact (read_of_partly [] (classify_first_partly (by omega) (by omega)) _).trans <|
      (read_of_partly [a] (classify_second_partly (by omega) hsecond) _).trans <|
      read_of_complete [a, b] hlast bs
  · next h h' h'' =>
    have ha := toNat_toUInt8 (n := 0xF0 + n / 0x40000) (by omega)
    have hb := toNat_toUInt8 (n := 0x80 + n / 0x1000 % 0x40) (by omega)
    have hc := toNat_toUInt8 (n := 0x80 + n / 0x40 % 0x40) (by omega)
    have hd := toNat_toUInt8 (n := 0x80 + n % 0x40) (by omega)
    generalize (0xF0 + n / 0x40000).toUInt8 = a at ha ⊢
    generalize (0x80 + n / 0x1000 % 0x40).toUInt8 = b at hb ⊢
    generalize (0x80 + n / 0x40 % 0x40).toUInt8 = c' at hc ⊢
    generalize (0x80 + n % 0x40).toUInt8 = d at hd ⊢
    have hsecond : secondMin a ≤ b.toNat ∧ b.toNat < secondEnd a := second_iff.2 (by omega)
    have hthird : classify [a, b, c'] = .partly := by
      have htail : isTail c' = true := isTail_iff.2 (by omega)
      rw [classify, if_neg (not_opensSurrogate hsecond), htail, if_neg (by decide),
        if_neg (by omega)]
    have hlast : classify [a, b, c', d] = .complete c := by
      have hn : (a.toNat - 0xF0) * 0x40000 + (b.toNat - 0x80) * 0x1000 + (c'.toNat - 0x80) * 0x40 +
          (d.toNat - 0x80) = n := by omega
      rw [classify, if_pos (isTail_iff.2 (by omega)), hn, hchar]
    exact (read_of_partly [] (classify_first_partly (by omega) (by omega)) _).trans <|
      (read_of_partly [a] (classify_second_partly (by omega) hsecond) _).trans <|
      (read_of_partly [a, b] hthird _).trans <|
      read_of_complete [a, b, c'] hlast bs

/-- The bytes of a text are read as that text, and none is kept. -/
theorem read_encode (text : List Char) : read [] (encode text) = some (text, []) := by
  induction text with
  | nil => rfl
  | cons c text ih => rw [encode_cons, read_encodeChar, ih, Option.map_some]

/-! ### What is read is a text -/

/-- The bytes that the decoder may keep: none, or the first of a character; also the pair that would
open a surrogate. -/
inductive Kept : Bytes → Prop where
  /-- It keeps none. -/
  | none : Kept []
  /-- It keeps the first byte. -/
  | first {a : UInt8} (h : 0xC2 ≤ a.toNat) (h' : a.toNat < 0xF5) : Kept [a]
  /-- It keeps the first two bytes of three or four. -/
  | second {a b : UInt8} (h : 0xE0 ≤ a.toNat) (h' : a.toNat < 0xF5)
    (hb : secondMin a ≤ b.toNat ∧ b.toNat < secondEnd a ∨ opensSurrogate a b = true) : Kept [a, b]
  /-- It keeps the first three bytes of four. -/
  | third {a b c : UInt8} (h : 0xF0 ≤ a.toNat) (h' : a.toNat < 0xF5)
    (hb : secondMin a ≤ b.toNat ∧ b.toNat < secondEnd a) (hc : isTail c = true) : Kept [a, b, c]

/-- Bytes that may still become a character are kept. -/
theorem Kept.of_partly (h : Kept kept) (hp : classify (kept ++ [b]) = .partly) :
    Kept (kept ++ [b]) := by
  cases h with
  | none =>
    simp only [List.nil_append, classify] at hp ⊢
    split at hp
    · cases hp
    · split at hp
      · next hb => exact .first hb.1 hb.2
      · cases hp
  | @first a h h' =>
    simp only [List.cons_append, List.nil_append, classify] at hp ⊢
    split at hp
    · split at hp <;> cases hp
    · next ha =>
      split at hp
      · next hb => exact .second (by omega) h' (.inl hb)
      · split at hp
        · next hb => exact .second (by omega) h' (.inr hb)
        · cases hp
  | @second a b' h h' hb =>
    simp only [List.cons_append, List.nil_append, classify] at hp ⊢
    split at hp
    · cases hp
    · next hsur =>
      split at hp
      · cases hp
      · next htail =>
        split at hp
        · cases hp
        · next ha =>
          have hb' := hb.resolve_right hsur
          exact .third (by omega) h' hb' (by simpa using htail)
  | third h h' hb hc =>
    simp only [List.cons_append, List.nil_append, classify] at hp
    split at hp <;> cases hp

theorem toNat_ofNat {n : Nat} (h : n.isValidChar) : (Char.ofNat n).toNat = n := by
  unfold Char.ofNat
  rw [dif_pos h]
  rfl

theorem toUInt8_eq {n : Nat} (h : n = a.toNat) : n.toUInt8 = a := by
  rw [h]
  exact UInt8.ofNat_toNat

/-- Bytes that complete a character are those that encode it. -/
theorem Kept.of_complete {c : Char} (h : Kept kept) (hc : classify (kept ++ [b]) = .complete c) :
    kept ++ [b] = encodeChar c := by
  unfold encodeChar
  cases h with
  | none =>
    simp only [List.nil_append, classify] at hc ⊢
    split at hc
    · next hb =>
      obtain rfl := Piece.complete.inj hc
      rw [toNat_ofNat (.inl (by omega)), if_pos hb, toUInt8_eq rfl]
    · split at hc <;> cases hc
  | @first a h h' =>
    simp only [List.cons_append, List.nil_append, classify] at hc ⊢
    split at hc
    · next ha =>
      split at hc
      · next hb =>
        obtain rfl := Piece.complete.inj hc
        have hb := isTail_iff.1 hb
        rw [toNat_ofNat (.inl (by omega)), if_neg (by omega), if_pos (by omega),
          toUInt8_eq (a := a) (by omega), toUInt8_eq (a := b) (by omega)]
      · cases hc
    · split at hc
      · cases hc
      · split at hc <;> cases hc
  | @second a b' h h' hb' =>
    simp only [List.cons_append, List.nil_append, classify] at hc ⊢
    split at hc
    · cases hc
    · next hsur =>
      split at hc
      · cases hc
      · next htail =>
        split at hc
        · next ha =>
          obtain rfl := Piece.complete.inj hc
          have hb := isTail_iff.1 (by simpa using htail)
          have hsecond := second_iff.1 (hb'.resolve_right hsur)
          rw [toNat_ofNat (by unfold Nat.isValidChar; omega), if_neg (by omega), if_neg (by omega),
            if_pos (by omega), toUInt8_eq (a := a) (by omega), toUInt8_eq (a := b') (by omega),
            toUInt8_eq (a := b) (by omega)]
        · cases hc
  | @third a b' c' h h' hb' hc' =>
    simp only [List.cons_append, List.nil_append, classify] at hc ⊢
    split at hc
    · next htail =>
      obtain rfl := Piece.complete.inj hc
      have hb := isTail_iff.1 htail
      have hc'' := isTail_iff.1 hc'
      have hsecond := second_iff.1 hb'
      rw [toNat_ofNat (by unfold Nat.isValidChar; omega), if_neg (by omega), if_neg (by omega),
        if_neg (by omega), toUInt8_eq (a := a) (by omega), toUInt8_eq (a := b') (by omega),
        toUInt8_eq (a := c') (by omega), toUInt8_eq (a := b) (by omega)]
    · cases hc

/-- What is read encodes to the bytes before those that are kept. -/
theorem Kept.read (new : Bytes) : ∀ {kept left : Bytes} {text : List Char}, Kept kept →
    read kept new = some (text, left) → kept ++ new = encode text ++ left ∧ Kept left := by
  induction new with
  | nil =>
    intro kept left text h hr
    cases hr
    exact ⟨List.append_nil _, h⟩
  | cons b bs ih =>
    intro kept left text h hr
    have happend : kept ++ b :: bs = kept ++ [b] ++ bs := by simp
    rw [happend]
    unfold Utf8.read at hr
    split at hr
    · next c hc =>
      obtain ⟨⟨rest, left'⟩, hrest, heq⟩ := Option.map_eq_some_iff.1 hr
      cases heq
      obtain ⟨hbytes, hleft⟩ := ih .none hrest
      refine ⟨?_, hleft⟩
      rw [h.of_complete hc, encode_cons, List.append_assoc, ← hbytes, List.nil_append]
    · next hp => exact ih (h.of_partly hp) hr
    · cases hr

theorem eq_encode_of_read (h : read [] new = some (text, left)) : new = encode text ++ left :=
  (Kept.none.read new h).1

/-! ### Pieces -/

theorem finish_eq_ok_iff : finish kept = .ok () ↔ kept = [] := by
  unfold finish
  split
  · simp
  · split <;> simp
  · simp

/-- At the end no character is completed any more. -/
theorem readPieces_nil_fst (kept : Bytes) : (readPieces kept []).1 = [] := by
  rw [readPieces]
  cases finish kept <;> rfl

/-- Pieces are read to their end, as a text, just if together they are read as that text. -/
theorem readPieces_eq_none_iff_read (pieces : List Bytes) : ∀ {kept : Bytes} {text : List Char},
    readPieces kept pieces = (text, none) ↔ read kept pieces.flatten = some (text, []) := by
  induction pieces with
  | nil =>
    intro kept text
    rw [readPieces, List.flatten_nil, read_nil]
    cases hf : finish kept with
    | ok =>
      rw [finish_eq_ok_iff.1 hf]
      simp
    | error cause =>
      have hne : kept ≠ [] := fun hnil => by simp [finish_eq_ok_iff.2 hnil] at hf
      simp [hne]
  | cons piece pieces ih =>
    intro kept text
    rw [readPieces, List.flatten_cons, read_append, ← toOption_feed]
    cases feed kept piece with
    | error cause => simp [Except.toOption]
    | ok r =>
      obtain ⟨s, left⟩ := r
      simp only [Except.toOption, Option.bind_some, Option.map_eq_some_iff, Prod.mk.injEq]
      constructor
      · rintro ⟨rfl, hnone⟩
        exact ⟨_, ih.1 (Prod.ext rfl hnone), rfl, rfl⟩
      · rintro ⟨⟨more, left'⟩, hread, rfl, rfl⟩
        rw [ih.2 hread]
        exact ⟨rfl, rfl⟩

/-- **Pieces are a text however they are divided**: they are read to their end, as a text, just if
together they are its bytes. -/
theorem readPieces_eq_none_iff (pieces : List Bytes) :
    readPieces [] pieces = (text, none) ↔ pieces.flatten = encode text := by
  rw [readPieces_eq_none_iff_read]
  constructor
  · intro h
    rw [eq_encode_of_read h, List.append_nil]
  · intro h
    rw [h, read_encode]

/-- What was read of pieces, up to where they are no text, is encoded by their first bytes. -/
theorem isPrefix_of_readPieces (pieces : List Bytes) : ∀ {kept : Bytes}, Kept kept →
    encode (readPieces kept pieces).1 <+: kept ++ pieces.flatten := by
  induction pieces with
  | nil =>
    intro kept _
    rw [readPieces]
    cases finish kept <;> exact List.nil_prefix
  | cons piece pieces ih =>
    intro kept h
    rw [readPieces]
    cases hf : feed kept piece with
    | error cause => exact List.nil_prefix
    | ok r =>
      obtain ⟨s, left⟩ := r
      have hread : read kept piece = some (s, left) := by
        rw [← toOption_feed, hf]
        rfl
      obtain ⟨hbytes, hleft⟩ := h.read piece hread
      rw [List.flatten_cons, ← List.append_assoc, hbytes, List.append_assoc]
      dsimp only
      rw [encode_append]
      exact (List.prefix_append_right_inj _).2 (ih hleft)

end Utf8
end Stencil
