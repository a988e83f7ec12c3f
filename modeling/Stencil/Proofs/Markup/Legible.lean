import Stencil.Markup.Basic
import Stencil.Proofs.Pattern.Captures

/-!
# Lines that can be read

A markup chooses groups of its patterns for names and break flags.  Its lines can all be read if the
patterns have the chosen groups, and those for names take part in every match; the name of a
placeholder must have a text, too.  The usual markup by comments is of this kind, and none of its
names is empty.

## Main definitions

* `Markup.Legible` — the markups whose lines can all be read.
* `Markup.Line.Legible` — the lines that can be read.
* `Markup.standard` — the usual markup by comments.

## Main results

* `Markup.Legible.classify` — all lines of such a markup can be read.
* `Markup.legible_standard`, `Markup.startName_standard` — the usual markup.
-/

namespace Stencil

namespace Pattern

/-- A pattern has a group, if one is chosen. -/
def HasGroup (pattern : Pattern) (group : Option GroupRef) : Prop :=
  ∀ ref, group = some ref → (pattern.groupNumber? ref).isSome = true

/-- A group is there and takes part in all matches, each time with a text of a kind. -/
def AlwaysHolds (pattern : Pattern) (group : Option GroupRef) (kind : String → Prop) : Prop :=
  ∀ text found, pattern.search text = some found →
    ∃ name, Markup.groupText found group = .ok (some name) ∧ kind name

theorem HasGroup.keepsBreak {pattern : Pattern} {group : Option GroupRef}
    (h : pattern.HasGroup group) {text : String} {found : Match}
    (hfound : pattern.search text = some found) :
    ∃ keep, Markup.keepsBreak found group = .ok keep := by
  cases group with
  | none => exact ⟨true, rfl⟩
  | some ref =>
    obtain ⟨n, hn⟩ := Option.isSome_iff_exists.1 (h ref rfl)
    rw [← pattern_of_search hfound] at hn
    rw [Markup.keepsBreak, Markup.groupText, Option.bind_some, Match.group?, hn]
    exact ⟨_, rfl⟩

theorem AlwaysHolds.mono {pattern : Pattern} {group : Option GroupRef} {kind kind' : String → Prop}
    (h : pattern.AlwaysHolds group kind) (hkind : ∀ name, kind name → kind' name) :
    pattern.AlwaysHolds group kind' := by
  intro text found hfound
  obtain ⟨name, hname, hk⟩ := h text found hfound
  exact ⟨name, hname, hkind name hk⟩

/-- It can be read off a pattern that a group always holds a text that is not empty. -/
theorem alwaysHolds_of_holds {pattern : Pattern} {ref : GroupRef}
    (h : pattern.holds ref 1 = true) : pattern.AlwaysHolds (some ref) (· ≠ "") := by
  intro text found hfound
  obtain ⟨s, hs, hlen⟩ := group?_of_holds h hfound
  refine ⟨s, by rw [Markup.groupText, Option.bind_some, hs], ?_⟩
  rintro rfl
  exact absurd hlen (by decide)

end Pattern

namespace Markup

/-- The lines that can be read: the flags and names that they need are there. -/
inductive Line.Legible : Markup.Line → Prop where
  /-- A start line. -/
  | start (lead : Bool) (name : String) : Legible (.start (.ok lead) (.ok (some name)))
  /-- An end line. -/
  | finish (name : String) (trail : Bool) : Legible (.finish (.ok (some name)) (.ok trail))
  /-- A line that is a placeholder with a name. -/
  | block (lead : Bool) {name : String} (trail : Bool) (h : name ≠ "") :
    Legible (.block (.ok lead) (.ok (some name)) (.ok trail))
  /-- A line of text. -/
  | plain (text : String) : Legible (.plain text)

/-- The markups whose lines can all be read: the patterns have the groups that are chosen, and those
for names take part in every match. -/
structure Legible (m : Markup) : Prop where
  /-- The flag of a start line. -/
  startLead : m.start.HasGroup m.startLead
  /-- The flag of an end line. -/
  finishTrail : m.finish.HasGroup m.finishTrail
  /-- The flag for the break before a block line. -/
  blockLead : m.block.HasGroup m.blockLead
  /-- The flag for the break after it. -/
  blockTrail : m.block.HasGroup m.blockTrail
  /-- The name of a start line. -/
  startName : m.start.AlwaysHolds m.startName fun _ => True
  /-- The name of an end line. -/
  finishName : m.finish.AlwaysHolds m.finishName fun _ => True
  /-- The name of a block line, which is not empty. -/
  blockName : m.block.AlwaysHolds m.blockName (· ≠ "")

/-- All lines of a legible markup can be read. -/
theorem Legible.classify {m : Markup} (h : m.Legible) (text : String) :
    (m.classify text).Legible := by
  unfold Markup.classify
  cases hs : m.start.search text with
  | some s =>
    obtain ⟨keep, hkeep⟩ := h.startLead.keepsBreak hs
    obtain ⟨name, hname, -⟩ := h.startName text s hs
    dsimp only
    rw [hkeep, hname]
    exact .start keep name
  | none =>
    cases hf : m.finish.search text with
    | some s =>
      obtain ⟨keep, hkeep⟩ := h.finishTrail.keepsBreak hf
      obtain ⟨name, hname, -⟩ := h.finishName text s hf
      dsimp only
      rw [hkeep, hname]
      exact .finish name keep
    | none =>
      cases hb : m.block.search text with
      | some s =>
        obtain ⟨lead, hlead⟩ := h.blockLead.keepsBreak hb
        obtain ⟨trail, htrail⟩ := h.blockTrail.keepsBreak hb
        obtain ⟨name, hname, hne⟩ := h.blockName text s hb
        dsimp only
        rw [hlead, hname, htrail]
        exact .block lead trail hne
      | none => exact .plain _

/-- The names of start lines are of the kind of their group. -/
theorem name_of_classify {m : Markup} {kind : String → Prop}
    (h : m.start.AlwaysHolds m.startName kind) {text : String} {lead : Except Fault Bool}
    {name : String} (hc : m.classify text = .start lead (.ok (some name))) : kind name := by
  unfold Markup.classify at hc
  cases hs : m.start.search text with
  | some s =>
    obtain ⟨name', hname', hkind⟩ := h text s hs
    rw [hs] at hc
    dsimp only at hc
    rw [hname'] at hc
    cases hc
    exact hkind
  | none =>
    rw [hs] at hc
    cases hf : m.finish.search text <;> rw [hf] at hc
    · cases hb : m.block.search text <;> rw [hb] at hc <;> cases hc
    · cases hc

/-! ### The usual markup -/

/-- The pattern that a text is, as it is read without a limit on digits. -/
def patternOf (source : String) : Pattern := (Pattern.ofText source).toOption.getD default

/-- The usual markup by comments. -/
def standard : Markup where
  inlineStart := "`"
  inlineEnd := "`"
  block := patternOf CommentStyle.standard.blockSource
  start := patternOf CommentStyle.standard.startSource
  finish := patternOf CommentStyle.standard.finishSource
  blockName := some (.name "name")
  blockLead := some (.name "lbrk")
  blockTrail := some (.name "tbrk")
  startName := some (.name "name")
  startLead := some (.name "lbrk")
  finishName := some (.name "name")
  finishTrail := some (.name "tbrk")
  lineEnd := "\n"
  pathSep := "/"
  prepare := none

section Limit

variable [DigitLimit]

-- the sources hold no counts, so the reader gets through them without a look at the limit
theorem ofText_blockSource : Pattern.ofText CommentStyle.standard.blockSource =
    .ok (patternOf CommentStyle.standard.blockSource) := rfl

theorem ofText_startSource : Pattern.ofText CommentStyle.standard.startSource =
    .ok (patternOf CommentStyle.standard.startSource) := rfl

theorem ofText_finishSource : Pattern.ofText CommentStyle.standard.finishSource =
    .ok (patternOf CommentStyle.standard.finishSource) := rfl

theorem comment_standard : Markup.comment Pattern.ofText .standard = .ok standard := by
  rw [Markup.comment, ofText_blockSource, ofText_startSource, ofText_finishSource]
  rfl

end Limit

theorem fault?_standard : standard.fault? = none := by decide

/-- No start line of the usual markup has an empty name. -/
theorem startName_standard : standard.start.AlwaysHolds standard.startName (· ≠ "") :=
  Pattern.alwaysHolds_of_holds (by decide +kernel)

/-- All lines of the usual markup can be read. -/
theorem legible_standard : standard.Legible where
  startLead := by rintro ref ⟨⟩; decide +kernel
  finishTrail := by rintro ref ⟨⟩; decide +kernel
  blockLead := by rintro ref ⟨⟩; decide +kernel
  blockTrail := by rintro ref ⟨⟩; decide +kernel
  startName := startName_standard.mono fun _ _ => trivial
  finishName := (Pattern.alwaysHolds_of_holds (by decide +kernel)).mono fun _ _ => trivial
  blockName := Pattern.alwaysHolds_of_holds (by decide +kernel)

theorem classify_standard_ne (text : String) (lead : Except Fault Bool) :
    standard.classify text ≠ .start lead (.ok (some "")) :=
  fun h => name_of_classify startName_standard h rfl

end Markup

end Stencil
