import Stencil.Proofs.Markup.Safe
import Stencil.Proofs.Text.Utf8

/-!
# Files and bytes

The bytes of a template may be parsed as they are, and then a line ends in a line feed, with or
without a carriage return before it.  In a file a carriage return alone ends a line too.  So a
carriage return within a line makes one line more of the file than of its bytes, and what is parsed
is the same only if there is none.

A file may be no text.  Then its lines stop by a fault, and only then.

## Main definitions

* `ReturnsEnd` — every carriage return of a text stands at the end of a line.
* `IsNoText` — bytes that are no text.

## Main results

* `length_splitLines_unifyBreaks` — unifying the breaks adds no line just if every carriage return
  stands at the end of one.
* `Lines.ofText_unifyBreaks` — then the lines stay the same.
* `Lines.ofFile_eq_ofText`, `Lines.isNoText_of_ofFile` — the lines of files.
* `Catalog.parse_counting` — a markup by which a parse tells how many lines there are.
* `Catalog.parse_ofFile_eq_iff` — when a file is parsed as its bytes are.
* `Catalog.fault_of_parse_ofFile` — what upsets the parse of a file.
-/

namespace Stencil

open Text (unifyBreaks)

/-! ### Carriage returns -/

/-- Every carriage return stands at the end of a line: before a line feed, or behind all else. -/
def ReturnsEnd (s : List Char) : Prop :=
  ∀ before after, s = before ++ '\r' :: after → after = [] ∨ after.head? = some '\n'

theorem returnsEnd_nil : ReturnsEnd [] := fun before after h => by cases before <;> cases h

theorem returnsEnd_cons_iff {c : Char} {s : List Char} : ReturnsEnd (c :: s) ↔
    (c = '\r' → s = [] ∨ s.head? = some '\n') ∧ ReturnsEnd s := by
  constructor
  · intro h
    refine ⟨?_, fun before after hs => h (c :: before) after (by rw [hs, List.cons_append])⟩
    rintro rfl
    exact h [] s rfl
  · rintro ⟨hc, hs⟩ before after heq
    cases before with
    | nil =>
      cases heq
      exact hc rfl
    | cons b before =>
      cases heq
      exact hs before after rfl

theorem returnsEnd_cons_of_ne {c : Char} (hc : c ≠ '\r') {s : List Char} :
    ReturnsEnd (c :: s) ↔ ReturnsEnd s := by
  rw [returnsEnd_cons_iff]
  exact and_iff_right fun h => absurd h hc

/-- A carriage return that is not part of a break with a line feed stands at the end of a line
only if nothing is behind it. -/
theorem eq_nil_of_returnsEnd {s : List Char} (hs : ∀ rest, s = '\n' :: rest → False)
    (h : ReturnsEnd ('\r' :: s)) : s = [] := by
  rcases (returnsEnd_cons_iff.1 h).1 rfl with hnil | hhead
  · exact hnil
  · cases s with
    | nil => rfl
    | cons c s => exact (hs s (by rw [Option.some.inj hhead])).elim

/-! ### How many lines there are -/

theorem length_splitLines_cons {c : Char} (hc : c ≠ '\n') (s : List Char) :
    (splitLines (c :: s)).length = max 1 (splitLines s).length := by
  rw [splitLines_cons hc, List.length_cons, List.length_tail]
  omega

theorem length_splitLines_pos {s : List Char} (hs : s ≠ []) : 0 < (splitLines s).length := by
  cases s with
  | nil => exact absurd rfl hs
  | cons c s =>
    by_cases hc : c = '\n'
    · subst hc
      exact Nat.succ_pos _
    · rw [length_splitLines_cons hc]
      omega

/-- Unifying the breaks of a text takes no line from it, and it adds none just if every carriage
return stands at the end of a line. -/
theorem length_splitLines_unifyBreaks (s : List Char) :
    (splitLines s).length ≤ (splitLines (unifyBreaks s)).length ∧
      ((splitLines (unifyBreaks s)).length = (splitLines s).length ↔ ReturnsEnd s) := by
  induction s using Text.unifyBreaks.induct with
  | case1 => exact ⟨Nat.le_refl _, iff_of_true rfl returnsEnd_nil⟩
  | case2 s ih =>
    -- a carriage return with its line feed is one break either way
    obtain ⟨hle, hiff⟩ := ih
    have hreturns : ReturnsEnd ('\r' :: '\n' :: s) ↔ ReturnsEnd s := by
      rw [returnsEnd_cons_iff, returnsEnd_cons_of_ne (by decide)]
      exact and_iff_right fun _ => .inr rfl
    rw [hreturns, ← hiff, unifyBreaks, length_splitLines_cons (by decide), splitLines, splitLines,
      List.length_cons, List.length_cons]
    omega
  | case3 s hs ih =>
    -- a carriage return without one is a break, and a line more if something is behind it
    obtain ⟨hle, -⟩ := ih
    rw [unifyBreaks, length_splitLines_cons (by decide), splitLines, List.length_cons]
    · by_cases hnil : s = []
      · subst hnil
        exact ⟨Nat.le_refl _, iff_of_true rfl (returnsEnd_cons_iff.2 ⟨fun _ => .inl rfl,
          returnsEnd_nil⟩)⟩
      · have hpos := length_splitLines_pos hnil
        exact ⟨by omega, iff_of_false (by omega) fun h => hnil (eq_nil_of_returnsEnd hs h)⟩
    · exact hs
  | case4 c s hreturnfeed hreturn ih =>
    obtain ⟨hle, hiff⟩ := ih
    have hc : c ≠ '\r' := by
      rintro rfl
      exact hreturn rfl
    rw [returnsEnd_cons_of_ne hc, ← hiff, unifyBreaks]
    · by_cases hn : c = '\n'
      · subst hn
        rw [splitLines, splitLines, List.length_cons, List.length_cons]
        omega
      · rw [length_splitLines_cons hn, length_splitLines_cons hn]
        by_cases hnil : s = []
        · subst hnil
          exact ⟨Nat.le_refl _, iff_of_true rfl rfl⟩
        · have hpos := length_splitLines_pos hnil
          omega
    · exact hreturnfeed
    · exact hreturn

/-! ### What the lines are -/

theorem dropFinal_cons {a c : Char} (h : a ≠ c) (s : List Char) :
    dropFinal c (a :: s) = a :: dropFinal c s := by
  cases s with
  | nil => simp [dropFinal, h]
  | cons b s =>
    simp only [dropFinal, List.getLast?_cons_cons, List.dropLast_cons_cons]
    split <;> rfl

theorem chomp_cons {c : Char} (hn : c ≠ '\n') (hr : c ≠ '\r') (s : List Char) :
    chomp (c :: s) = c :: chomp s := by
  rw [chomp, dropFinal_cons hn, dropFinal_cons hr, chomp]

/-- A character that belongs to no break goes to the front of the first line. -/
theorem map_chomp_splitLines_cons {c : Char} (hn : c ≠ '\n') (hr : c ≠ '\r') (s : List Char) :
    (splitLines (c :: s)).map chomp =
      (c :: ((splitLines s).map chomp).headD []) :: ((splitLines s).map chomp).tail := by
  rw [splitLines_cons hn, List.map_cons, chomp_cons hn hr, List.map_tail]
  cases splitLines s <;> rfl

/-- Where every carriage return stands at the end of a line, the lines do not depend on it. -/
theorem map_chomp_splitLines_unifyBreaks {s : List Char} (h : ReturnsEnd s) :
    (splitLines (unifyBreaks s)).map chomp = (splitLines s).map chomp := by
  induction s using Text.unifyBreaks.induct with
  | case1 => rfl
  | case2 s ih =>
    have hs : ReturnsEnd s := (returnsEnd_cons_iff.1 (returnsEnd_cons_iff.1 h).2).2
    rw [unifyBreaks, splitLines, splitLines_cons (by decide), splitLines, List.map_cons,
      List.map_cons, ih hs]
    rfl
  | case3 s hs ih =>
    obtain rfl := eq_nil_of_returnsEnd hs h
    rfl
  | case4 c s hreturnfeed hreturn ih =>
    have hr : c ≠ '\r' := by
      rintro rfl
      exact hreturn rfl
    have hs := (returnsEnd_cons_of_ne hr).1 h
    rw [unifyBreaks]
    · by_cases hn : c = '\n'
      · subst hn
        rw [splitLines, splitLines, List.map_cons, List.map_cons, ih hs]
      · rw [map_chomp_splitLines_cons hn hr, map_chomp_splitLines_cons hn hr, ih hs]
    · exact hreturnfeed
    · exact hreturn

namespace Lines

theorem lines_ofText (s : List Char) :
    (ofText s).lines = ((splitLines s).map chomp).map String.ofList := by
  rw [List.map_map]
  rfl

theorem length_lines_ofText (s : List Char) : (ofText s).lines.length = (splitLines s).length :=
  List.length_map _

/-- Where every carriage return stands at the end of a line, unifying the breaks changes no
line. -/
theorem ofText_unifyBreaks {s : List Char} (h : ReturnsEnd s) :
    ofText (unifyBreaks s) = ofText s := by
  have hlines : (ofText (unifyBreaks s)).lines = (ofText s).lines := by
    rw [lines_ofText, lines_ofText, map_chomp_splitLines_unifyBreaks h]
  have heta (s : List Char) : ofText s = ⟨(ofText s).lines, none⟩ := rfl
  rw [heta, heta s, hlines]

end Lines

/-! ### Bytes that are a text -/

variable {bytes : Bytes} {s : List Char}

/-- Bytes are decoded as the text that they encode. -/
theorem Charset.decode_utf8_eq_ok_iff :
    Charset.utf8.decode bytes = .ok s ↔ bytes = Utf8.encode s := by
  have hread : (Utf8.feed [] bytes).toOption = Utf8.read [] bytes := Utf8.toOption_feed [] bytes
  have hfeed : Charset.utf8.feed [] bytes = Utf8.feed [] bytes := rfl
  rw [Charset.decode, hfeed]
  cases hf : Utf8.feed [] bytes with
  | error e =>
    rw [hf] at hread
    refine iff_of_false (fun h => by cases h) ?_
    rintro rfl
    rw [Utf8.read_encode] at hread
    cases hread
  | ok r =>
    obtain ⟨text, kept⟩ := r
    rw [hf] at hread
    have hbytes := Utf8.eq_encode_of_read hread.symm
    dsimp only
    constructor
    · intro h
      cases hk : Charset.utf8.finish kept with
      | error e =>
        rw [hk] at h
        cases h
      | ok u =>
        rw [hk] at h
        cases h
        rw [hbytes, Utf8.finish_eq_ok_iff.1 hk, List.append_nil]
    · rintro rfl
      rw [Utf8.read_encode] at hread
      cases hread
      rfl

theorem flatten_filePieces (bytes : Bytes) : ∀ fuel, bytes.length ≤ fuel →
    (filePieces fuel bytes).flatten = bytes := by
  intro fuel
  induction fuel generalizing bytes with
  | zero =>
    intro h
    rw [List.length_eq_zero_iff.1 (Nat.le_zero.1 h)]
    rfl
  | succ fuel ih =>
    intro h
    cases bytes with
    | nil => rfl
    | cons b bytes =>
      have hdrop : ((b :: bytes).drop pieceSize).length ≤ fuel := by
        rw [List.length_drop]
        unfold pieceSize
        omega
      rw [filePieces, List.flatten_cons, ih _ hdrop, List.take_append_drop]

/-- A file that is a text has the lines of that text, with all breaks unified. -/
theorem Lines.ofFile_eq_ofText (h : Charset.utf8.decode bytes = .ok s) :
    Lines.ofFile bytes = .ofText (unifyBreaks s) := by
  have hpieces : readPieces [] (filePieces bytes.length bytes) = (s, none) := by
    rw [Utf8.readPieces_eq_none_iff, flatten_filePieces bytes _ (Nat.le_refl _)]
    exact Charset.decode_utf8_eq_ok_iff.1 h
  rw [Lines.ofFile, hpieces]

/-- Bytes that are a text have the lines of that text. -/
theorem Source.read_bytes (h : Charset.utf8.decode bytes = .ok s) :
    (Source.bytes bytes).read .standard = .ofText s := by
  have hdecode : Encoding.standard.decode bytes = .ok (String.ofList s) := by
    cases bytes with
    | nil =>
      cases h
      rfl
    | cons b bytes =>
      have hcodec : Codec.utf8.decode (b :: bytes) = .ok (String.ofList s) := by
        simp only [Codec.utf8, Charset.codec, h]
      simp only [Encoding.decode, List.isEmpty_cons, Bool.false_eq_true, if_false,
        Encoding.codec_standard, hcodec]
  rw [Source.read, hdecode]
  dsimp only
  rw [String.toList_ofList]

theorem Source.read_text (s : List Char) (encoding : Encoding) :
    (Source.text (String.ofList s)).read encoding = .ofText s := by
  rw [Source.read, String.toList_ofList]

/-! ### A markup that counts lines -/

variable {ω : Type}

/-- The pattern that is found at the start of every line. -/
def Pattern.anywhere : Pattern := ⟨"", .empty, 0, [], false⟩

/-- The markup in which every line starts a sub-template, with an empty name. -/
def Markup.counting : Markup where
  inlineStart := "`"
  inlineEnd := "`"
  block := .anywhere
  start := .anywhere
  finish := .anywhere
  blockName := some (.number 0)
  blockLead := none
  blockTrail := none
  startName := some (.number 0)
  startLead := none
  finishName := some (.number 0)
  finishTrail := none
  lineEnd := "\n"
  pathSep := "/"
  prepare := none

theorem Markup.classify_counting (text : String) :
    Markup.counting.classify text = .start (.ok true) (.ok (some "")) := by
  have hsearch : Pattern.anywhere.search text = some ⟨.anywhere, text.toList, [(0, 0, 0)]⟩ := by
    unfold Pattern.search Pattern.searchFrom
    rfl
  simp only [classify, counting, hsearch]
  rfl

theorem Markup.openPath_counting (lines : List String) : ∀ path : List String,
    openPath path (lines.map counting.classify) = path ++ List.replicate lines.length "" := by
  induction lines with
  | nil => exact fun path => (List.append_nil path).symm
  | cons text lines ih =>
    intro path
    rw [List.map_cons, classify_counting, openPath_cons, ih, Line.pathAfter, List.append_assoc,
      List.length_cons, List.replicate_succ, List.singleton_append]

theorem Markup.firstFailure?_counting (lines : List String) : ∀ (path : List String) (number : Nat),
    (counting.firstFailure? path number (lines.map counting.classify) : Option (Failure ω)) =
      none := by
  induction lines with
  | nil => exact fun _ _ => rfl
  | cons text lines ih =>
    intro path number
    rw [List.map_cons, classify_counting, firstFailure?_cons, ih, Option.or_none]
    rfl

namespace Catalog

/-- **Lines are counted**: by this markup the parse is stopped by as many open sub-templates as
there are lines. -/
theorem parse_counting (root : String) (lines : List String) :
    (parse ([] : Catalog ω) .counting root ⟨lines, none⟩).2 =
      if lines = [] then none
      else some (.parse (.unterminatedNesting (List.replicate lines.length ""))) := by
  rw [(parse_course ⟨lines, none⟩ rfl Shelf.named_nil).1, Markup.firstFailure?_counting,
    Markup.openPath_counting]
  cases lines with
  | nil => rfl
  | cons text lines => rfl

/-- Lines that the counting markup makes the same of are as many. -/
theorem length_eq_of_parse_counting {root : String} {lines lines' : List String}
    (h : (parse ([] : Catalog ω) .counting root ⟨lines, none⟩).2 =
      (parse ([] : Catalog ω) .counting root ⟨lines', none⟩).2) : lines.length = lines'.length := by
  rw [parse_counting, parse_counting] at h
  by_cases hnil : lines = []
  · by_cases hnil' : lines' = []
    · rw [hnil, hnil']
    · rw [if_pos hnil, if_neg hnil'] at h
      cases h
  · by_cases hnil' : lines' = []
    · rw [if_neg hnil, if_pos hnil'] at h
      cases h
    · rw [if_neg hnil, if_neg hnil'] at h
      injection h with h
      injection h with h
      injection h with h
      have hlength := congrArg List.length h
      rwa [List.length_replicate, List.length_replicate] at hlength

/-- **A file is parsed as its bytes are**, by every markup, just if every carriage return of its
text stands at the end of a line. -/
theorem parse_ofFile_eq_iff (h : Charset.utf8.decode bytes = .ok s) :
    (∀ m root, parse ([] : Catalog ω) m root (.ofFile bytes) =
      parse [] m root ((Source.bytes bytes).read .standard)) ↔ ReturnsEnd s := by
  rw [Lines.ofFile_eq_ofText h, Source.read_bytes h]
  constructor
  · intro hall
    have hlines : (Lines.ofText (unifyBreaks s)).lines.length = (Lines.ofText s).lines.length :=
      length_eq_of_parse_counting (congrArg Prod.snd (hall .counting ""))
    rw [Lines.length_lines_ofText, Lines.length_lines_ofText] at hlines
    exact (length_splitLines_unifyBreaks s).2.1 hlines
  · intro hs m root
    rw [Lines.ofText_unifyBreaks hs]

end Catalog

/-! ### Files that are no text -/

/-- The bytes are no text. -/
def IsNoText (bytes : Bytes) : Prop := ∀ text, bytes ≠ Utf8.encode text

theorem isNoText_of_fileText {bytes : Bytes} {f : Fault} (h : fileText bytes = .error f) :
    IsNoText bytes ∧ ∃ cause, f = .undecodable .utf8 cause := by
  unfold fileText at h
  cases hd : Charset.utf8.decode bytes with
  | ok s =>
    rw [hd] at h
    cases h
  | error cause =>
    rw [hd] at h
    cases h
    refine ⟨fun text htext => ?_, cause, rfl⟩
    cases hd.symm.trans (Charset.decode_utf8_eq_ok_iff.2 htext)

namespace Lines

/-- Where the lines of a file stop by a fault, the file is no text. -/
theorem isNoText_of_ofFile {bytes : Bytes} {f : Fault} (h : (ofFile bytes).fault = some f) :
    IsNoText bytes ∧ ∃ cause, f = .undecodable .utf8 cause := by
  rcases hpieces : readPieces [] (filePieces bytes.length bytes) with ⟨s, _ | cause⟩
  · rw [ofFile, hpieces] at h
    cases h
  · rw [ofFile, hpieces] at h
    cases h
    refine ⟨fun text htext => ?_, cause, rfl⟩
    have hnone : readPieces [] (filePieces bytes.length bytes) = (text, none) := by
      rw [Utf8.readPieces_eq_none_iff, flatten_filePieces bytes _ (Nat.le_refl _)]
      exact htext
    cases (congrArg Prod.snd (hpieces.symm.trans hnone))

theorem isLine_of_mem_ofFile {bytes : Bytes} {text : String} (h : text ∈ (ofFile bytes).lines) :
    IsLine text := by
  rcases hpieces : readPieces [] (filePieces bytes.length bytes) with ⟨s, _ | cause⟩
  · rw [ofFile, hpieces] at h
    exact isLine_of_mem_ofText h
  · rw [ofFile, hpieces] at h
    -- the lines before the fault are among those of what was read
    obtain ⟨l, hl, rfl⟩ := List.mem_map.1 h
    have hmem : l ∈ splitLines (Text.unifyBreaks (dropFinal '\r' s)) := by
      unfold wholeLines at hl
      split at hl
      · exact hl
      · exact List.mem_of_mem_dropLast hl
    exact isLine_of_mem_ofText (List.mem_map_of_mem hmem)

end Lines

/-- **What upsets the parse of a file**: a line upsets the markup, which then is not one that no
source upsets; or the file is no text. -/
theorem Catalog.fault_of_parse_ofFile {m : Markup} {root : String} {bytes : Bytes} {f : Fault}
    (h : (Catalog.parse ([] : Catalog ω) m root (.ofFile bytes)).2 = some (.fault f)) :
    (¬ m.Safe ∧ m.firstFailure? [] 1 ((Lines.ofFile bytes).lines.map m.classify) =
      some (.fault f : Failure ω)) ∨ (IsNoText bytes ∧ ∃ cause, f = .undecodable .utf8 cause) := by
  rw [(parse_course _ rfl Shelf.named_nil).1] at h
  cases hfirst : (m.firstFailure? [] 1 ((Lines.ofFile bytes).lines.map m.classify) :
      Option (Failure ω)) with
  | some e =>
    rw [hfirst, Option.some_or] at h
    obtain rfl := Option.some.inj h
    refine .inl ⟨fun hsafe => ?_, rfl⟩
    obtain ⟨p, hp⟩ := hsafe.firstFailure? (fun _ => Lines.isLine_of_mem_ofFile) hfirst
    cases hp
  | none =>
    rw [hfirst, Option.none_or] at h
    cases hfault : (Lines.ofFile bytes).fault with
    | some f' =>
      rw [hfault] at h
      cases h
      exact .inr (Lines.isNoText_of_ofFile hfault)
    | none =>
      rw [hfault, Option.map_none, Option.none_or] at h
      split at h <;> cases h

end Stencil
