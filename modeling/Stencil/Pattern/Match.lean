import Stencil.Pattern.Basic

/-!
# Matching

A part of a pattern is matched at a place by trying its possibilities in order, each with what comes
after it, until the whole is matched.  A repetition stops when it matched nothing new.

## Main definitions

* `Place` — a place in a text.
* `Node.run` — a part matched, with what comes after it.
* `Pattern.search` — the first match in a text.
* `GroupRef`, `Match.group` — what a group of a match holds.
-/

namespace Stencil.Pattern

/-- A place in a text. -/
structure Place where
  /-- How many characters are before it. -/
  index : Nat
  /-- The character before it. -/
  before : Option Char
  /-- The characters after it. -/
  rest : List Char
  deriving DecidableEq, Repr

/-- The place after the next character. -/
def Place.step (p : Place) (c : Char) (rest : List Char) : Place := ⟨p.index + 1, some c, rest⟩

/-- The ends of what groups matched, the latest first. -/
abbrev Captures := List (Nat × Nat × Nat)

/-- What comes after a part, as a function of the place and the captures. -/
abbrev Next := Place → Captures → Option (Place × Captures)

/-- Whether a character is in a part of a set. -/
def SetItem.contains (item : SetItem) (c : Char) : Bool :=
  match item with
  | .range first last => decide (first.toNat ≤ c.toNat ∧ c.toNat ≤ last.toNat)
  | .ofClass k inside => k.contains c == inside

/-- Whether a character is in a part of a set, with letter case put aside: a range holds it if it
has one of its variants. -/
def SetItem.containsVariant (item : SetItem) (c : Char) : Bool :=
  match item with
  | .range _ _ => (Text.variants c).any item.contains
  | .ofClass _ _ => item.contains c

/-- Whether a character is in a set. -/
def setContains (caseless : Bool) (items : List SetItem) (c : Char) : Bool :=
  items.any fun item => item.contains c || (caseless && item.containsVariant c)

/-- Whether the place before a character, or at the end, is one of a kind. -/
def Anchor.holds (a : Anchor) (p : Place) : Bool :=
  let wordBefore := p.before.any Text.isWord
  let wordAfter := p.rest.head?.any Text.isWord
  match a with
  | .start => p.index == 0
  | .finish => p.rest == [] || p.rest == ['\n']
  | .veryEnd => p.rest == []
  | .boundary inside => (wordBefore != wordAfter) == inside

/-- Match a text at a place. -/
def matchText (caseless : Bool) : List Char → Next → Next
  | [], k, p, caps => k p caps
  | c :: text, k, p, caps =>
    match p.rest with
    | [] => none
    | d :: rest =>
      if c == d || (caseless && Text.sameLetter c d) then
        matchText caseless text k (p.step d rest) caps
      else none

/-- Repeat a part as often as it goes, but at least `least` times; a repetition that starts where
the last one did is not tried. -/
def runMost (body : Next → Next) (least : Nat) (most : Option Nat) (k : Next) :
    (fuel count : Nat) → (last : Option Nat) → Next
  | 0, _, _, p, caps => k p caps
  | fuel + 1, count, last, p, caps =>
    if count < least then body (runMost body least most k fuel (count + 1) last) p caps
    -- a round that moved nowhere is not followed by another one
    else if most.all (count < ·) && last != some p.index then
      match body (runMost body least most k fuel (count + 1) (some p.index)) p caps with
      | some r => some r
      | none => k p caps
    else k p caps

/-- Repeat a part as seldom as it goes, but at least `least` times. -/
def runLeast (body : Next → Next) (least : Nat) (most : Option Nat) (k : Next) :
    (fuel count : Nat) → (last : Option Nat) → Next
  | 0, _, _, p, caps => k p caps
  | fuel + 1, count, last, p, caps =>
    if count < least then body (runLeast body least most k fuel (count + 1) last) p caps
    else
      match k p caps with
      | some r => some r
      | none =>
        if most.all (count < ·) && last != some p.index then
          body (runLeast body least most k fuel (count + 1) (some p.index)) p caps
        else none

/-- Match a part of a pattern on `text`, and then what comes after it. -/
def Node.run (caseless : Bool) (text : List Char) : Node → Next → Next
  | .empty, k, p, caps => k p caps
  | .any, k, p, caps =>
    match p.rest with
    | [] => none
    | c :: rest => if c == '\n' then none else k (p.step c rest) caps
  | .set items inside, k, p, caps =>
    match p.rest with
    | [] => none
    | c :: rest =>
      if setContains caseless items c == inside then k (p.step c rest) caps else none
  | .anchor a, k, p, caps => if a.holds p then k p caps else none
  | .again g, k, p, caps =>
    match caps.lookup g with
    | some (start, stop) => matchText caseless ((text.take stop).drop start) k p caps
    | none => none
  | .group g inner, k, p, caps =>
    inner.run caseless text (fun q caps => k q ((g, p.index, q.index) :: caps)) p caps
  | .bracketed inner, k, p, caps => inner.run caseless text k p caps
  -- only the first way to match the part is tried
  | .settled inner, k, p, caps =>
    match inner.run caseless text (fun q caps => some (q, caps)) p caps with
    | some (q, caps) => k q caps
    | none => none
  | .seq first second, k, p, caps =>
    first.run caseless text (fun q caps => second.run caseless text k q caps) p caps
  | .choice first second, k, p, caps =>
    match first.run caseless text k p caps with
    | some r => some r
    | none => second.run caseless text k p caps
  | .loop least most greed inner, k, p, caps =>
    -- after the rounds that must be, every round but the last one moves on
    let fuel := least + p.rest.length + 2
    match greed with
    | .most => runMost (inner.run caseless text) least most k fuel 0 none p caps
    | .least => runLeast (inner.run caseless text) least most k fuel 0 none p caps
    | .fixed =>
      match runMost (inner.run caseless text) least most (fun q caps => some (q, caps))
          fuel 0 none p caps with
      | some (q, caps) => k q caps
      | none => none

/-- A match of a pattern in a text. -/
structure Match where
  /-- The pattern. -/
  pattern : Pattern
  /-- The text. -/
  text : List Char
  /-- The ends of what the groups matched; group zero is the whole match. -/
  captures : Captures

/-- The first match at a place or after it. -/
def searchFrom (pattern : Pattern) (text : List Char) (before : Option Char) :
    (index : Nat) → (rest : List Char) → Option Match
  | index, rest =>
    match pattern.root.run pattern.caseless text (fun q caps => some (q, caps))
        ⟨index, before, rest⟩ [] with
    | some (q, caps) => some ⟨pattern, text, (0, index, q.index) :: caps⟩
    | none =>
      match rest with
      | [] => none
      | c :: rest => searchFrom pattern text (some c) (index + 1) rest

/-- The first match of a pattern in a text. -/
def search (pattern : Pattern) (text : String) : Option Match :=
  searchFrom pattern text.toList none 0 text.toList

/-- Whether a text has a match of a pattern. -/
def occursIn (pattern : Pattern) (text : String) : Bool := (pattern.search text).isSome

/-! ### Groups -/

/-- How a group is named. -/
inductive GroupRef where
  /-- By its number. -/
  | number (n : Int)
  /-- By a truth value, which stands for a number. -/
  | flag (b : Bool)
  /-- By its name. -/
  | name (s : String)
  deriving DecidableEq, Repr, Inhabited

/-- The number of a group, if the pattern has it. -/
def groupNumber? (pattern : Pattern) : GroupRef → Option Nat
  | .number n => if 0 ≤ n ∧ n ≤ pattern.groups then some n.toNat else none
  | .flag b =>
    let n := if b then 1 else 0
    if n ≤ pattern.groups then some n else none
  | .name s => pattern.names.lookup s

/-- What a group of a match holds: a text, or nothing if it took no part. -/
def Match.group? (m : Match) (ref : GroupRef) : Option (Option String) :=
  (m.pattern.groupNumber? ref).map fun n =>
    (m.captures.lookup n).map fun (start, stop) =>
      String.ofList ((m.text.take stop).drop start)

end Stencil.Pattern
