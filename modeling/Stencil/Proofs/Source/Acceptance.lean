import Stencil.Proofs.Markup.Legible
import Stencil.Proofs.Source.Inline
import Stencil.Proofs.Source.Keys

/-!
# Which sources are accepted

A source is accepted if its lines are those of a body, no name contains the separator, and each
inline placeholder is closed on its line.  Otherwise the first offending line is reported with its
number, or the open path if no line offends.  No template is a duplicate in an empty catalogue, and
none is continued under another name.

This is so for markups whose lines can all be read; a line that cannot be read is a fault of the
markup.

## Main definitions

* `InlineScan.Leaves` — what the scan of a line leaves unclosed.
* `Markup.Offence`, `Markup.Line.Offends` — what can be wrong with a line.
* `Markup.Sound` — lines none of which offends.
* `Markup.WellWritten` — lines with nothing wrong but perhaps their nesting.

## Main results

* `InlineScan.leaves_iff` — the cut of a line is its scan.
* `Markup.sound_iff` — no line offends just if none fails.
* `Catalog.parse_accepts_iff` — which sources are accepted, and which errors the others have.
-/

namespace Stencil

variable {ω : Type}

/-! ### Inline placeholders -/

namespace InlineScan

variable {opening closing line : List Char} {left : Option (List Char)}

/-- What the scan of a line from left to right leaves behind a marker that is not closed. -/
inductive Leaves (opening closing : List Char) : List Char → Option (List Char) → Prop where
  /-- No marker opens a placeholder. -/
  | text {line : List Char} (h : ¬ opening <:+: line) : Leaves opening closing line none
  /-- The first marker that does is not closed behind it. -/
  | unclosed {line before after : List Char} (h : Text.cut? opening line = some (before, after))
    (hafter : ¬ closing <:+: after) : Leaves opening closing line (some after)
  /-- It is closed, and the scan goes on behind the placeholder. -/
  | closed {line before after name rest : List Char} {left : Option (List Char)}
    (h : Text.cut? opening line = some (before, after))
    (hafter : Text.cut? closing after = some (name, rest))
    (hrest : Leaves opening closing rest left) : Leaves opening closing line left

/-- The cut of a line is its scan. -/
theorem leaves_iff (hopening : opening ≠ []) :
    Leaves opening closing line left ↔ (ofLine opening closing line).unclosed = left := by
  constructor
  · intro h
    induction h with
    | text h => rw [ofLine_of_text h]
    | unclosed h hafter => rw [ofLine_of_unclosed (Text.cut?_eq_some_iff.1 h) hafter]
    | @closed line before after name rest left h hafter hrest ih =>
      have hround : Round opening closing line (before, name) rest :=
        ⟨after, Text.cut?_eq_some_iff.1 h, Text.cut?_eq_some_iff.1 hafter⟩
      rw [ofLine_of_round hopening hround]
      exact ih
  · rintro rfl
    induction line using round_induction hopening closing with
    | text line h =>
      rw [ofLine_of_text h]
      exact .text h
    | unclosed line before rest h hrest =>
      rw [ofLine_of_unclosed h hrest]
      exact .unclosed (Text.cut?_eq_some_iff.2 h) hrest
    | round line piece rest h ih =>
      rw [ofLine_of_round hopening h]
      obtain ⟨after, htext, hname⟩ := h
      exact .closed (Text.cut?_eq_some_iff.2 htext) (Text.cut?_eq_some_iff.2 hname) ih

end InlineScan

/-! ### Offending lines -/

theorem Item.mem_linesOf {x : Item} {what : Markup.Line} (hwhat : what ∈ x.lines) {body : List Item}
    (hx : x ∈ body) : what ∈ Item.linesOf body := by
  induction body with
  | nil => cases hx
  | cons y rest ih =>
    rw [Item.linesOf, List.mem_append]
    rcases List.mem_cons.1 hx with rfl | hx
    · exact .inl hwhat
    · exact .inr (ih hx)

namespace Markup

variable {m : Markup}

theorem inlineStart_ne_empty (hm : m.fault? = none) : m.inlineStart ≠ "" := by
  intro h
  rw [fault?, if_pos (by simp [h])] at hm
  cases hm

/-- The scan of a line of text. -/
def Leaves (m : Markup) (text : String) (left : Option (List Char)) : Prop :=
  InlineScan.Leaves m.inlineStart.toList m.inlineEnd.toList text.toList left

theorem leaves_iff (hm : m.fault? = none) {text : String} {left : Option (List Char)} :
    m.Leaves text left ↔ (m.scan text).unclosed = left :=
  InlineScan.leaves_iff (Parsing.toList_ne_nil (inlineStart_ne_empty hm))

/-- What can be wrong with a line. -/
inductive Offence where
  /-- The name of a sub-template contains the separator. -/
  | invalidName (name : String)
  /-- A sub-template ends that is not the innermost open one. -/
  | unexpectedEnd (name : String) (innermost : Option String)
  /-- A placeholder is not closed; the rest of the line is behind its marker. -/
  | unterminatedPlaceholder (rest : String)

/-- The error that reports an offence on a line with a number. -/
def Offence.toError (m : Markup) (number : Nat) : Offence → ParseError ω
  | invalidName name => .invalidName name m.pathSep number
  | unexpectedEnd name innermost => .unexpectedEnd (some name) innermost number
  | unterminatedPlaceholder rest => .unterminatedPlaceholder rest number

/-- What is wrong with a line where a path is open. -/
inductive Line.Offends (m : Markup) (path : List String) : Markup.Line → Offence → Prop where
  | invalidName {lead : Except Fault Bool} {name : String}
    (h : m.pathSep.toList <:+: name.toList) :
    Offends m path (.start lead (.ok (some name))) (.invalidName name)
  | unexpectedEnd {name : String} {trail : Except Fault Bool} (h : path.getLast? ≠ some name) :
    Offends m path (.finish (.ok (some name)) trail) (.unexpectedEnd name path.getLast?)
  | unterminatedPlaceholder {text : String} {rest : List Char} (h : m.Leaves text (some rest)) :
    Offends m path (.plain text) (.unterminatedPlaceholder (String.ofList rest))

/-- Lines none of which offends where it stands. -/
def Sound (m : Markup) (whats : List Markup.Line) : Prop :=
  ∀ before what after offence, whats = before ++ what :: after →
    ¬ what.Offends m (openPath [] before) offence

/-- Lines with nothing wrong but perhaps their nesting. -/
structure WellWritten (m : Markup) (whats : List Markup.Line) : Prop where
  /-- No name contains the separator. -/
  names : ∀ lead name, .start lead (.ok (some name)) ∈ whats →
    ¬ m.pathSep.toList <:+: name.toList
  /-- All placeholders are closed. -/
  texts : ∀ text, .plain text ∈ whats → m.Leaves text none

/-- A line that can be read fails just if it offends. -/
theorem Line.Legible.failure?_eq_some_iff (hm : m.fault? = none) {what : Markup.Line}
    (h : what.Legible) {path : List String} {number : Nat} {e : Failure ω} :
    what.failure? m path number = some e ↔
      ∃ offence, what.Offends m path offence ∧ e = .parse (offence.toError m number) := by
  cases h with
  | start lead name =>
    by_cases hname : Text.occurs m.pathSep.toList name.toList = true
    · rw [Line.failure?, if_pos hname, Option.some_inj]
      constructor
      · rintro rfl
        exact ⟨_, .invalidName (Text.occurs_iff.1 hname), rfl⟩
      · rintro ⟨_, ⟨⟩, rfl⟩
        rfl
    · rw [Line.failure?, if_neg hname]
      refine ⟨fun he => (by cases he), ?_⟩
      rintro ⟨_, h, -⟩
      cases h with
      | invalidName h => exact absurd (Text.occurs_iff.2 h) hname
  | finish name trail =>
    have hguard : (path.getLast?.isNone || path.getLast? != some name) = true ↔
        path.getLast? ≠ some name := by
      cases path.getLast? <;> simp
    by_cases hlast : path.getLast? = some name
    · rw [Line.failure?, if_neg (by rw [hguard]; exact not_not_intro hlast)]
      refine ⟨fun he => (by cases he), ?_⟩
      rintro ⟨_, h, -⟩
      cases h with
      | unexpectedEnd h => exact absurd hlast h
    · rw [Line.failure?, if_pos (hguard.2 hlast), Option.some_inj]
      constructor
      · rintro rfl
        exact ⟨_, .unexpectedEnd hlast, rfl⟩
      · rintro ⟨_, ⟨⟩, rfl⟩
        rfl
  | block lead trail hname =>
    have hnone : ∀ name : String, name ≠ "" →
        (Line.block (.ok lead) (.ok (some name)) (.ok trail)).failure? m path number =
          (none : Option (Failure ω)) := by
      intro name hname
      rw [Line.failure?, if_neg (by simpa using hname)]
    rw [hnone _ hname]
    refine ⟨fun he => (by cases he), ?_⟩
    rintro ⟨_, ⟨⟩, -⟩
  | plain text =>
    rw [Line.failure?, Option.map_eq_some_iff]
    constructor
    · rintro ⟨rest, hrest, rfl⟩
      exact ⟨_, .unterminatedPlaceholder ((leaves_iff hm).2 hrest), rfl⟩
    · rintro ⟨_, h, rfl⟩
      cases h with
      | unterminatedPlaceholder h => exact ⟨_, (leaves_iff hm).1 h, rfl⟩

/-- No line offends just if none fails. -/
theorem sound_iff (hm : m.fault? = none) {whats : List Markup.Line}
    (h : ∀ what ∈ whats, what.Legible) :
    m.Sound whats ↔ (m.firstFailure? [] 1 whats : Option (Failure ω)) = none := by
  rw [firstFailure?_eq_none_iff]
  constructor
  · intro hsound before what after hwhats
    refine Option.eq_none_iff_forall_ne_some.2 fun e he => ?_
    have hwhat : what.Legible := h what (by rw [hwhats]; simp)
    obtain ⟨offence, hoffends, -⟩ := (hwhat.failure?_eq_some_iff hm).1 he
    exact hsound before what after offence hwhats hoffends
  · intro hnone before what after offence hwhats hoffends
    have hwhat : what.Legible := h what (by rw [hwhats]; simp)
    have hfails : what.failure? m (openPath [] before) (1 + before.length) =
        some (.parse (offence.toError m (1 + before.length)) : Failure ω) :=
      (hwhat.failure?_eq_some_iff hm).2 ⟨offence, hoffends, rfl⟩
    rw [hnone before what after hwhats] at hfails
    cases hfails

/-- The first line that fails is the first that offends. -/
theorem firstFailure?_eq_some_iff_offends (hm : m.fault? = none) {whats : List Markup.Line}
    (h : ∀ what ∈ whats, what.Legible) {e : Failure ω} :
    m.firstFailure? [] 1 whats = some e ↔
      ∃ before what after offence, whats = before ++ what :: after ∧ m.Sound before ∧
        what.Offends m (openPath [] before) offence ∧
        e = .parse (offence.toError m (before.length + 1)) := by
  rw [firstFailure?_eq_some_iff]
  constructor
  · rintro ⟨before, what, after, rfl, hbefore, hfails⟩
    have hwhat : what.Legible := h what (by simp)
    have hsound := (sound_iff hm fun w hw => h w (List.mem_append_left _ hw)).2 hbefore
    obtain ⟨offence, hoffends, rfl⟩ := (hwhat.failure?_eq_some_iff hm).1 hfails
    exact ⟨before, what, after, offence, rfl, hsound, hoffends, by rw [Nat.add_comm]⟩
  · rintro ⟨before, what, after, offence, rfl, hsound, hoffends, rfl⟩
    have hwhat : what.Legible := h what (by simp)
    have hbefore := sound_iff (ω := ω) hm fun w hw => h w (List.mem_append_left _ hw)
    refine ⟨before, what, after, rfl, hbefore.1 hsound, (hwhat.failure?_eq_some_iff hm).2 ?_⟩
    exact ⟨offence, hoffends, by rw [Nat.add_comm]⟩

/-- Nothing is wrong with the names and placeholders of sound lines. -/
theorem Sound.wellWritten (hm : m.fault? = none) {whats : List Markup.Line} (h : m.Sound whats) :
    m.WellWritten whats where
  names := by
    intro lead name hmem hname
    obtain ⟨before, after, hwhats⟩ := List.append_of_mem hmem
    exact h before _ after _ hwhats (.invalidName hname)
  texts := by
    intro text hmem
    obtain ⟨before, after, hwhats⟩ := List.append_of_mem hmem
    rw [leaves_iff hm]
    refine Option.eq_none_iff_forall_ne_some.2 fun rest hrest => ?_
    exact h before _ after _ hwhats (.unterminatedPlaceholder ((leaves_iff hm).2 hrest))

theorem WellWritten.mono {whats whats' : List Markup.Line} (h : m.WellWritten whats)
    (hsub : ∀ what ∈ whats', what ∈ whats) : m.WellWritten whats' :=
  ⟨fun lead name hmem => h.names lead name (hsub _ hmem),
    fun text hmem => h.texts text (hsub _ hmem)⟩

/-! ### Bodies -/

/-- The lines of a row of items, if those of each item do not fail and leave the path as it is. -/
theorem firstFailure?_linesOf_of {body : List Item}
    (h : ∀ x ∈ body, ∀ path number,
      (m.firstFailure? path number x.lines : Option (Failure ω)) = none ∧
        openPath path x.lines = path) :
    ∀ path number, (m.firstFailure? path number (Item.linesOf body) : Option (Failure ω)) = none ∧
      openPath path (Item.linesOf body) = path := by
  induction body with
  | nil => exact fun path number => ⟨rfl, rfl⟩
  | cons x rest ih =>
    intro path number
    obtain ⟨hx, hpath⟩ := h x List.mem_cons_self path number
    have hrest := ih (fun y hy => h y (List.mem_cons_of_mem _ hy)) path (number + x.lines.length)
    rw [Item.linesOf, firstFailure?_append, openPath_append, hx, hpath, Option.none_or]
    exact hrest

/-- The lines of an item do not fail if nothing is wrong with them, and leave the path as it is. -/
theorem firstFailure?_lines (hm : m.fault? = none) (x : Item) :
    (∀ what ∈ x.lines, what.Legible) → m.WellWritten x.lines →
      ∀ path number, (m.firstFailure? path number x.lines : Option (Failure ω)) = none ∧
        openPath path x.lines = path := by
  induction x using Item.induct with
  | plain text =>
    intro _ hwell path number
    have hclosed := (leaves_iff hm).1 (hwell.texts text (by simp [Item.lines]))
    rw [Item.lines, firstFailure?_cons, Line.failure?, hclosed]
    exact ⟨rfl, rfl⟩
  | block lead name trail =>
    intro hlegible _ path number
    have hblock := hlegible (.block (.ok lead) (.ok (some name)) (.ok trail))
      (by rw [Item.lines]; exact List.mem_singleton.2 rfl)
    cases hblock with
    | block _ _ hname =>
      rw [Item.lines, firstFailure?_cons, Line.failure?, if_neg (by simpa using hname)]
      exact ⟨rfl, rfl⟩
  | region lead name trail body ih =>
    intro hlegible hwell path number
    rw [Item.lines] at hlegible hwell ⊢
    have hmem : ∀ x ∈ body, ∀ what ∈ x.lines,
        what ∈ Markup.Line.start (.ok lead) (.ok (some name)) ::
          (Item.linesOf body ++ [.finish (.ok (some name)) (.ok trail)]) := by
      intro x hx what hwhat
      exact List.mem_cons_of_mem _ (List.mem_append_left _ (Item.mem_linesOf hwhat hx))
    have hbody := firstFailure?_linesOf_of fun x hx => ih x hx
      (fun what hwhat => hlegible what (hmem x hx what hwhat)) (hwell.mono (hmem x hx))
    have hstart : ¬ Text.occurs m.pathSep.toList name.toList = true :=
      mt Text.occurs_iff.1 (hwell.names _ name List.mem_cons_self)
    obtain ⟨hnone, hpath⟩ := hbody (path ++ [name]) (number + 1)
    rw [firstFailure?_cons, firstFailure?_append, openPath_cons, openPath_append]
    simp only [Line.pathAfter, hnone, hpath, Option.none_or]
    rw [Line.failure?, if_neg hstart, Option.none_or, firstFailure?_cons, Line.failure?,
      if_neg (by simp)]
    exact ⟨rfl, List.dropLast_concat⟩

end Markup

/-! ### Sources -/

section Accepting

variable {m : Markup} {root : String} {lines : List String}

theorem Markup.Legible.of_mem_classify (hlegible : m.Legible) :
    ∀ what ∈ lines.map m.classify, what.Legible := by
  intro what hwhat
  obtain ⟨text, -, rfl⟩ := List.mem_map.1 hwhat
  exact hlegible.classify text

/-- What stops a parse is the first offending line, or the path that is open at the end. -/
theorem Catalog.parse_eq_some_iff (hm : m.fault? = none) (hlegible : m.Legible) {e : Failure ω} :
    (Catalog.parse ([] : Catalog ω) m root ⟨lines, none⟩).2 = some e ↔
      (∃ before what after offence, lines.map m.classify = before ++ what :: after ∧
        m.Sound before ∧ what.Offends m (Markup.openPath [] before) offence ∧
        e = .parse (offence.toError m (before.length + 1))) ∨
      (m.Sound (lines.map m.classify) ∧ Markup.openPath [] (lines.map m.classify) ≠ [] ∧
        e = .parse (.unterminatedNesting (Markup.openPath [] (lines.map m.classify)))) := by
  have hread : ∀ what ∈ lines.map m.classify, what.Legible := hlegible.of_mem_classify
  rw [(Catalog.parse_course ⟨lines, none⟩ rfl Shelf.named_nil).1, Option.or_eq_some_iff,
    Markup.firstFailure?_eq_some_iff_offends hm hread, Markup.sound_iff (ω := ω) hm hread,
    Option.map_none, Option.none_or]
  refine or_congr Iff.rfl (and_congr_right fun _ => ?_)
  split
  · next hpath => simp [hpath]
  · next hpath => simp [hpath, eq_comm]

/-- Nothing stops a parse of the lines of a body, if nothing is wrong with their names and
placeholders. -/
theorem Catalog.parse_eq_none_iff (hm : m.fault? = none) (hlegible : m.Legible) :
    (Catalog.parse ([] : Catalog ω) m root ⟨lines, none⟩).2 = none ↔
      (∃ body, Item.linesOf body = lines.map m.classify) ∧
        m.WellWritten (lines.map m.classify) := by
  have hread : ∀ what ∈ lines.map m.classify, what.Legible := hlegible.of_mem_classify
  constructor
  · intro hnone
    refine ⟨Catalog.exists_body_of_parse (Prod.ext rfl hnone), ?_⟩
    have hsound := (Markup.sound_iff hm hread).2 (Catalog.parse_nil_eq_none_iff.1 hnone).1
    exact hsound.wellWritten hm
  · rintro ⟨⟨body, hbody⟩, hwell⟩
    have hitems := Markup.firstFailure?_linesOf_of (ω := ω) (m := m) fun x hx =>
      Markup.firstFailure?_lines hm x
        (fun what hwhat => hread what (hbody ▸ Item.mem_linesOf hwhat hx))
        (hwell.mono fun what hwhat => hbody ▸ Item.mem_linesOf hwhat hx)
    rw [Catalog.parse_nil_eq_none_iff, ← hbody]
    exact hitems [] 1

end Accepting

/-- **Which sources are accepted.**  Take a markup whose lines can all be read, and a source that is
parsed into an empty catalogue.  It is accepted just if its lines are those of a body, no name
contains the separator, and all placeholders are closed.  Otherwise the error is that of the first
offending line, with its number; or it tells the path that is open at the end, if no line offends.
So no template is a duplicate, and none is continued under another name. -/
theorem Catalog.parse_accepts_iff {m : Markup} (hm : m.fault? = none) (hlegible : m.Legible)
    (root : String) (lines : List String) :
    let whats := lines.map m.classify
    let outcome := (Catalog.parse ([] : Catalog ω) m root ⟨lines, none⟩).2
    (outcome = none ↔ (∃ body, Item.linesOf body = whats) ∧ m.WellWritten whats) ∧
    (∀ e, outcome = some e ↔
      (∃ before what after offence, whats = before ++ what :: after ∧ m.Sound before ∧
        what.Offends m (Markup.openPath [] before) offence ∧
        e = .parse (offence.toError m (before.length + 1))) ∨
      (m.Sound whats ∧ Markup.openPath [] whats ≠ [] ∧
        e = .parse (.unterminatedNesting (Markup.openPath [] whats)))) ∧
    (∀ templates, outcome ≠ some (.parse (.duplicates templates))) ∧
    ∀ stored expected number, outcome ≠ some (.parse (.nameMismatch stored expected number)) := by
  intro whats outcome
  refine ⟨Catalog.parse_eq_none_iff hm hlegible, fun e => Catalog.parse_eq_some_iff hm hlegible,
    fun templates h => ?_, fun stored expected number h => ?_⟩
  -- no offence is reported by such an error
  · rcases (Catalog.parse_eq_some_iff hm hlegible).1 h with ⟨_, _, _, offence, -, -, -, he⟩ | h
    · cases offence <;> cases he
    · cases h.2.2
  · rcases (Catalog.parse_eq_some_iff hm hlegible).1 h with ⟨_, _, _, offence, -, -, -, he⟩ | h
    · cases offence <;> cases he
    · cases h.2.2

theorem Markup.legible_marks : Markup.marks.Legible where
  startLead := by rintro ref ⟨⟩; decide
  finishTrail := by rintro ref ⟨⟩; decide
  blockLead := by rintro ref ⟨⟩; decide
  blockTrail := by rintro ref ⟨⟩
  startName := (Pattern.alwaysHolds_of_holds (by decide)).mono fun _ _ => trivial
  finishName := (Pattern.alwaysHolds_of_holds (by decide)).mono fun _ _ => trivial
  blockName := Pattern.alwaysHolds_of_holds (by decide)

/-- The third line is the first that offends, as its placeholder is not closed. -/
theorem Catalog.parse_accepts_iff_marks :
    (Catalog.parse ([] : Catalog Empty) .marks "page"
      ⟨["a `x`", "<row", "b `c", ">col"], none⟩).2 =
        some (.parse (.unterminatedPlaceholder "c" 3)) := by
  have hcourse := Catalog.parse_accepts_iff (ω := Empty) (m := .marks) rfl Markup.legible_marks
    "page" ["a `x`", "<row", "b `c", ">col"]
  refine (hcourse.2.1 _).2 (.inl ⟨[.plain "a `x`", .start (.ok true) (.ok (some "row"))],
    .plain "b `c", [.finish (.ok (some "col")) (.ok true)], .unterminatedPlaceholder "c", rfl, ?_,
    ?_, rfl⟩)
  · rw [Markup.sound_iff (ω := Empty) rfl]
    · rfl
    · simp only [List.mem_cons, List.not_mem_nil, or_false, forall_eq_or_imp, forall_eq]
      exact ⟨.plain _, .start _ _⟩
  · exact .unterminatedPlaceholder ((Markup.leaves_iff rfl).2 rfl)

end Stencil
