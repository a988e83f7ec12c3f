import Stencil.Proofs.Source.Rendering
import Stencil.Proofs.Source.Steady
import Stencil.Proofs.Text.Mark

/-!
# The scan of a line

The scan of a line goes in rounds.  A round takes off a text, up to the first marker that opens a
placeholder, and a name, up to the first one behind it that closes it; the next round is about the
rest of the line.  Each round leaves a shorter line, so the scan comes to an end: either no marker
opens a placeholder any more, or one does that is not closed.  The markers may be equal, and they
may overlap each other or themselves.

## Main definitions

* `InlineScan.Round`, `InlineScan.Rounds` — the rounds of a scan.
* `InlineScan.Cuts` — a line cut into texts and names.
* `InlineScan.names` — the names that become placeholders.
* `InlineScan.additions` — what is added for a line, addition by addition.

## Main results

* `InlineScan.wellFounded_round` — no scan goes on for ever.
* `InlineScan.round_induction` — induction on the rounds of a line.
* `InlineScan.cuts_of_closed`, `InlineScan.unclosed_eq_some_iff` — both ends of a scan.
* `Parsing.stepPlain_scans` — what a plain line adds, and which error it has.
-/

namespace Stencil

variable {ω : Type}

namespace InlineScan

variable {opening closing line rest left : List Char} {piece : List Char × List Char}
  {pieces : List (List Char × List Char)}

/-! ### Rounds -/

/-- A round takes a text and the name behind it off a line, with the markers of the name. -/
def Round (opening closing line : List Char) (piece : List Char × List Char)
    (rest : List Char) : Prop :=
  ∃ after, Text.FirstCut opening line piece.1 after ∧ Text.FirstCut closing after piece.2 rest

/-- Rounds, one after the other, take texts and names off a line and leave the rest. -/
inductive Rounds (opening closing : List Char) :
    List Char → List (List Char × List Char) → List Char → Prop where
  /-- Nothing is taken off yet. -/
  | none (line : List Char) : Rounds opening closing line [] line
  /-- A round is followed by others. -/
  | more {line rest left : List Char} {piece : List Char × List Char}
    {pieces : List (List Char × List Char)} (h : Round opening closing line piece rest)
    (hrest : Rounds opening closing rest pieces left) :
    Rounds opening closing line (piece :: pieces) left

/-- A round leaves a shorter line. -/
theorem Round.length_lt (hopening : opening ≠ []) (h : Round opening closing line piece rest) :
    rest.length < line.length := by
  obtain ⟨after, htext, hname⟩ := h
  have hline := congrArg List.length htext.eq
  have hafter := congrArg List.length hname.eq
  have hmark : 0 < opening.length := List.length_pos_iff.2 hopening
  simp only [List.length_append] at hline hafter
  omega

/-- No scan goes on for ever. -/
theorem wellFounded_round (hopening : opening ≠ []) (closing : List Char) :
    WellFounded fun rest line => ∃ piece, Round opening closing line piece rest :=
  Subrelation.wf (fun ⟨_, h⟩ => h.length_lt hopening) (measure List.length).wf

/-- Induction on the rounds of a line. -/
@[elab_as_elim]
theorem round_induction (hopening : opening ≠ []) (closing : List Char) {P : List Char → Prop}
    (text : ∀ line, ¬ opening <:+: line → P line)
    (unclosed : ∀ line before rest, Text.FirstCut opening line before rest →
      ¬ closing <:+: rest → P line)
    (round : ∀ line piece rest, Round opening closing line piece rest → P rest → P line)
    (line : List Char) : P line := by
  induction line using (wellFounded_round hopening closing).induction with
  | _ line ih =>
    cases hcut : Text.cut? opening line with
    | none => exact text line (Text.cut?_eq_none_iff.1 hcut)
    | some parts =>
      obtain ⟨before, after⟩ := parts
      have htext := Text.cut?_eq_some_iff.1 hcut
      cases hcut' : Text.cut? closing after with
      | none => exact unclosed line before after htext (Text.cut?_eq_none_iff.1 hcut')
      | some parts' =>
        obtain ⟨name, rest⟩ := parts'
        have hround : Round opening closing line (before, name) rest :=
          ⟨after, htext, Text.cut?_eq_some_iff.1 hcut'⟩
        exact round line _ rest hround (ih rest ⟨_, hround⟩)

/-! ### The cut of a line, round by round -/

/-- As many rounds as the line has characters are enough. -/
theorem ofLineUpTo_eq (hopening : opening ≠ []) (closing : List Char) :
    ∀ {fuel fuel' : Nat} {line : List Char}, line.length < fuel → line.length < fuel' →
      ofLineUpTo opening closing fuel line = ofLineUpTo opening closing fuel' line := by
  intro fuel
  induction fuel with
  | zero => exact fun h => absurd h (Nat.not_lt_zero _)
  | succ fuel ih =>
    intro fuel' line hfuel hfuel'
    cases fuel' with
    | zero => exact absurd hfuel' (Nat.not_lt_zero _)
    | succ fuel' =>
      rw [ofLineUpTo, ofLineUpTo]
      cases hcut : Text.cut? opening line with
      | none => rfl
      | some parts =>
        obtain ⟨before, after⟩ := parts
        cases hcut' : Text.cut? closing after with
        | none => simp only [hcut']
        | some parts' =>
          obtain ⟨name, rest⟩ := parts'
          have hround : Round opening closing line (before, name) rest :=
            ⟨after, Text.cut?_eq_some_iff.1 hcut, Text.cut?_eq_some_iff.1 hcut'⟩
          have hlt := hround.length_lt hopening
          have hrest : ofLineUpTo opening closing fuel rest =
              ofLineUpTo opening closing fuel' rest := ih (by omega) (by omega)
          simp only [hcut', hrest]

/-- A line in which nothing opens a placeholder is text. -/
theorem ofLine_of_text (h : ¬ opening <:+: line) :
    ofLine opening closing line = ⟨[], line, none⟩ := by
  rw [ofLine, ofLineUpTo, Text.cut?_eq_none_iff.2 h]

/-- A placeholder that is not closed ends the scan. -/
theorem ofLine_of_unclosed {before : List Char} (h : Text.FirstCut opening line before rest)
    (hrest : ¬ closing <:+: rest) : ofLine opening closing line = ⟨[], before, some rest⟩ := by
  rw [ofLine, ofLineUpTo, Text.cut?_eq_some_iff.2 h]
  simp only [Text.cut?_eq_none_iff.2 hrest]

/-- After a round the scan goes on with the rest. -/
theorem ofLine_of_round (hopening : opening ≠ []) (h : Round opening closing line piece rest) :
    ofLine opening closing line = { ofLine opening closing rest with
      marked := piece :: (ofLine opening closing rest).marked } := by
  have hlt := h.length_lt hopening
  obtain ⟨after, htext, hname⟩ := h
  rw [ofLine, ofLineUpTo, Text.cut?_eq_some_iff.2 htext]
  simp only [Text.cut?_eq_some_iff.2 hname]
  rw [ofLineUpTo_eq hopening closing hlt (Nat.lt_succ_self _), ofLine]

/-! ### Both ends of a scan -/

/-- A line cut into texts and names, from its start to its end. -/
structure Cuts (opening closing line : List Char) (scan : InlineScan) : Prop where
  /-- The texts, and the names between their markers, make up the line. -/
  joined : scan.marked.flatMap (fun (text, name) => text ++ opening ++ name ++ closing) ++
    scan.tail = line
  /-- No marker that opens a placeholder is in a text. -/
  texts : ∀ piece ∈ scan.marked, ¬ opening <:+: piece.1
  /-- None is in the last text. -/
  tail : ¬ opening <:+: scan.tail
  /-- No marker that closes one is in a name. -/
  names : ∀ piece ∈ scan.marked, ¬ closing <:+: piece.2
  /-- They are cut off in rounds, at the first markers. -/
  rounds : Rounds opening closing line scan.marked scan.tail

/-- No marker is in the text or the name that ends in front of it. -/
theorem Rounds.free (hopening : opening ≠ []) (hclosing : closing ≠ [])
    (h : Rounds opening closing line pieces left) :
    ∀ piece ∈ pieces, ¬ opening <:+: piece.1 ∧ ¬ closing <:+: piece.2 := by
  induction h with
  | none => exact fun piece hpiece => by cases hpiece
  | more h hrest ih =>
    obtain ⟨after, htext, hname⟩ := h
    exact List.forall_mem_cons.2 ⟨⟨htext.free_before hopening, hname.free_before hclosing⟩, ih⟩

/-- A scan that leaves nothing unclosed ends where no marker opens a placeholder any more. -/
theorem rounds_of_closed (hopening : opening ≠ []) (line : List Char)
    (hclosed : (ofLine opening closing line).unclosed = none) :
    Rounds opening closing line (ofLine opening closing line).marked
      (ofLine opening closing line).tail ∧ ¬ opening <:+: (ofLine opening closing line).tail := by
  induction line using round_induction hopening closing with
  | text line h =>
    rw [ofLine_of_text h]
    exact ⟨.none line, h⟩
  | unclosed line before rest h hrest =>
    rw [ofLine_of_unclosed h hrest] at hclosed
    cases hclosed
  | round line piece rest h ih =>
    rw [ofLine_of_round hopening h] at hclosed ⊢
    obtain ⟨hrounds, htail⟩ := ih hclosed
    exact ⟨.more h hrounds, htail⟩

theorem cuts_of_closed (hopening : opening ≠ []) (hclosing : closing ≠ []) {line : List Char}
    (hclosed : (ofLine opening closing line).unclosed = none) :
    (ofLine opening closing line).Cuts opening closing line := by
  obtain ⟨hrounds, htail⟩ := rounds_of_closed hopening line hclosed
  have hpieces := hrounds.free hopening hclosing
  have hline := toLine_ofLine opening closing line
  rw [toLine, hclosed, List.append_nil] at hline
  exact ⟨hline, fun piece h => (hpieces piece h).1, htail, fun piece h => (hpieces piece h).2,
    hrounds⟩

/-- A scan leaves unclosed what is behind a marker that it comes to and that nothing closes. -/
theorem unclosed_eq_some_iff (hopening : opening ≠ []) :
    (ofLine opening closing line).unclosed = some rest ↔
      ∃ pieces left before, Rounds opening closing line pieces left ∧
        Text.FirstCut opening left before rest ∧ ¬ closing <:+: rest := by
  constructor
  · intro hrest
    induction line using round_induction hopening closing with
    | text line h =>
      rw [ofLine_of_text h] at hrest
      cases hrest
    | unclosed line before after h hafter =>
      rw [ofLine_of_unclosed h hafter] at hrest
      cases hrest
      exact ⟨[], line, before, .none line, h, hafter⟩
    | round line piece after h ih =>
      rw [ofLine_of_round hopening h] at hrest
      obtain ⟨pieces, left, before, hrounds, hend⟩ := ih hrest
      exact ⟨piece :: pieces, left, before, .more h hrounds, hend⟩
  · rintro ⟨pieces, left, before, hrounds, hcut, hfree⟩
    induction hrounds with
    | none => rw [ofLine_of_unclosed hcut hfree]
    | more h hrest ih =>
      rw [ofLine_of_round hopening h]
      exact ih hcut

/-! ### Placeholders -/

/-- The names that become placeholders: those that are not empty. -/
def names (scan : InlineScan) : List String :=
  (scan.marked.filter fun piece => !piece.2.isEmpty).map fun piece => String.ofList piece.2

/-- The holes of a cut line are those of its names, in order. -/
theorem filterMap_hole?_parts (scan : InlineScan) :
    (scan.parts : List (Part ω)).filterMap Part.hole? =
      scan.names.map fun name => (name, none) := by
  rw [parts, List.filterMap_append, Part.filterMap_hole?_bytes, List.append_nil, names]
  induction scan.marked with
  | nil => rfl
  | cons piece pieces ih =>
    rw [List.flatMap_cons, List.filterMap_append, ih, List.filterMap_append,
      Part.filterMap_hole?_bytes, List.nil_append]
    cases hname : piece.2.isEmpty <;> simp [hname, Part.hole?]

/-- A cut line as the edits that add it; there is none for an empty text or an empty name. -/
def additions (scan : InlineScan) : List (Edit ω) :=
  scan.marked.flatMap (fun (text, name) =>
    textEdits text ++ if name.isEmpty then [] else [.addPlaceholder (String.ofList name) none]) ++
  textEdits scan.tail

end InlineScan

namespace Parsing

variable {m : Markup} {root : String} {number : Nat} {st : Parsing ω} {t : Template ω}

/-- A cut line is added by its additions: a placeholder without a name would be refused. -/
theorem addScan_eq_additions (t : Template ω) (scan : InlineScan) :
    addScan t scan = t.edits scan.additions := by
  rw [addScan_eq, InlineScan.edits, InlineScan.additions, Template.edits_append,
    Template.edits_append]
  congr 1
  induction scan.marked generalizing t with
  | nil => rfl
  | cons piece pieces ih =>
    obtain ⟨text, name⟩ := piece
    simp only [List.flatMap_cons, Template.edits_append, ih]
    cases name with
    | nil => rfl
    | cons c name => rfl

theorem gains_additions (h : t.WellFormed) (scan : InlineScan) :
    t.Gains scan.parts (t.edits scan.additions) :=
  addScan_eq_additions t scan ▸ gains_addScan h scan

/-- A plain line fails if a placeholder is not closed; what it has before that is added. -/
theorem stepPlain_of_need (hneed : st.need m root number = .ok t) (text : String) :
    (st.stepPlain m root number text).2 = (m.scan text).unclosed.map (fun rest =>
      .parse (.unterminatedPlaceholder (String.ofList rest) number)) ∧
    (st.stepPlain m root number text).1.currentTemplate? m =
      some ((t.addUtf8 st.pending.toList).edits (m.scan text).additions) := by
  have hscan : InlineScan.ofLine m.inlineStart.toList m.inlineEnd.toList text.toList =
    m.scan text := rfl
  have hcurrent := currentTemplate?_setCurrent m st (addScan (st.withPending true t) (m.scan text))
  rw [← addScan_eq_additions, stepPlain, hneed]
  simp only [hscan]
  cases (m.scan text).unclosed with
  | none => exact ⟨rfl, hcurrent⟩
  | some rest => exact ⟨rfl, hcurrent⟩

/-- **What the scan of a plain line finds.**  Take markers that are not empty, and a line that is
added to a well-formed template.  No scan goes on for ever.  If the line does not fail, the scan
cuts it into texts without a marker that opens a placeholder and names without one that closes it,
which make up the line together with the markers.  They are added to the template in this order,
behind the pending break: each name as one placeholder, but an empty name not at all.  The line
fails just if the scan comes to a marker that opens a placeholder and is not closed, and the error
tells what is behind this marker. -/
theorem stepPlain_scans (hopening : m.inlineStart ≠ "") (hclosing : m.inlineEnd ≠ "")
    (hneed : st.need m root number = .ok t) (ht : t.WellFormed) (text : String) :
    let opening := m.inlineStart.toList
    let closing := m.inlineEnd.toList
    let scan := m.scan text
    let result := st.stepPlain m root number text
    let added := (t.addUtf8 st.pending.toList).edits scan.additions
    (WellFounded fun rest line => ∃ piece, InlineScan.Round opening closing line piece rest) ∧
    (result.2 = none → scan.Cuts opening closing text.toList ∧
      result.1.currentTemplate? m = some added ∧
      added.parts = t.parts ++ Part.bytes (Utf8.encode st.pending.toList) ++ scan.parts ∧
      added.holes = t.holes ++ scan.names.map fun name => (name, none)) ∧
    ∀ e, result.2 = some e ↔ ∃ pieces left before rest,
      InlineScan.Rounds opening closing text.toList pieces left ∧
      Text.FirstCut opening left before rest ∧ ¬ closing <:+: rest ∧
      e = .parse (.unterminatedPlaceholder (String.ofList rest) number) := by
  intro opening closing scan result added
  have hopening' : opening ≠ [] := mt String.toList_eq_nil_iff.1 hopening
  have hclosing' : closing ≠ [] := mt String.toList_eq_nil_iff.1 hclosing
  obtain ⟨hfailure, hcurrent⟩ := stepPlain_of_need hneed text
  refine ⟨InlineScan.wellFounded_round hopening' closing, fun hnone => ?_, fun e => ?_⟩
  · rw [hfailure, Option.map_eq_none_iff] at hnone
    have hbreak := Template.Gains.addStatic ht (Utf8.encode st.pending.toList)
    have hparts : added.parts =
        t.parts ++ Part.bytes (Utf8.encode st.pending.toList) ++ scan.parts := by
      rw [List.append_assoc]
      exact (hbreak.trans (gains_additions hbreak.wellFormed scan)).parts
    refine ⟨InlineScan.cuts_of_closed hopening' hclosing' hnone, hcurrent, hparts, ?_⟩
    rw [Template.holes_eq_filterMap_parts, hparts, List.filterMap_append, List.filterMap_append,
      Part.filterMap_hole?_bytes, List.append_nil, InlineScan.filterMap_hole?_parts,
      ← Template.holes_eq_filterMap_parts]
  · rw [hfailure, Option.map_eq_some_iff]
    constructor
    · rintro ⟨rest, hrest, rfl⟩
      obtain ⟨pieces, left, before, hrounds, hcut, hfree⟩ :=
        (InlineScan.unclosed_eq_some_iff hopening').1 hrest
      exact ⟨pieces, left, before, rest, hrounds, hcut, hfree, rfl⟩
    · rintro ⟨pieces, left, before, rest, hrounds, hcut, hfree, rfl⟩
      exact ⟨rest, (InlineScan.unclosed_eq_some_iff hopening').2
        ⟨pieces, left, before, hrounds, hcut, hfree⟩, rfl⟩

end Parsing

/-- Markers that overlap each other, the first of which overlaps itself too. -/
def Markup.overlapping : Markup := { marks with inlineStart := "aa", inlineEnd := "ab" }

/-- The first line has a placeholder and an empty one; in the second line the end of a marker does
not begin the one that would close it. -/
theorem Parsing.stepPlain_scans_overlapping :
    ((Parsing.stepPlain .overlapping "page" 3 "xaaaabbaaab"
        (.start [] : Parsing Empty)).1.currentTemplate? .overlapping).map Template.holes =
      some [("a", none)] ∧
    (Parsing.stepPlain .overlapping "page" 3 "aab" (.start [] : Parsing Empty)).2 =
      some (.parse (.unterminatedPlaceholder "b" 3)) := by
  have hneed : (Parsing.start [] : Parsing Empty).need .overlapping "page" 3 =
      .ok (.blank "page") := rfl
  have hscans := Parsing.stepPlain_scans (by decide) (by decide) hneed
    (Template.wellFormed_blank "page")
  constructor
  · obtain ⟨-, hcurrent, -, hholes⟩ := (hscans "xaaaabbaaab").2.1 rfl
    rw [hcurrent, Option.map_some, hholes]
    rfl
  · exact ((hscans "aab").2.2 _).2 ⟨[], "aab".toList, [], ['b'], .none _,
      ⟨rfl, fun b a _ => Nat.zero_le _⟩, by decide, rfl⟩

end Stencil
