import Stencil.Markup.Basic
import Stencil.Source.Catalog
import Stencil.Source.Inline
import Stencil.Source.Lines

/-!
# Parsing templates

A source is parsed line by line into a catalogue.  Start lines and end lines nest: what is between
them belongs to the sub-template of that name.  All other lines are added to the template that is
open.  The break at the end of a line is kept pending until the next thing is added, which may drop
it.

A template is made when something is first added under its key.  If the catalogue has a template
under that key already, a sub-template is continued; but the outermost template is always a new one,
which must not be stored under a key that is taken.

## Main definitions

* `Current` — the template that is open.
* `Parsing` — the state between two lines.
* `Parsing.step` — what a line does.
* `Catalog.parse` — a source parsed into a catalogue.
-/

namespace Stencil

/-- The template that is open. -/
inductive Current (ω : Type) where
  /-- None is made yet. -/
  | absent
  /-- The one that the catalogue has under the open key. -/
  | stored
  /-- One that is not in the catalogue. -/
  | detached (t : Template ω)

/-- The state between two lines. -/
structure Parsing (ω : Type) where
  /-- The templates stored so far. -/
  catalog : Catalog ω
  /-- The templates whose keys are taken. -/
  duplicates : Catalog ω
  /-- The names of the open sub-templates, the outermost first. -/
  path : List String
  /-- The break that is pending. -/
  pending : String
  /-- The template that is open. -/
  current : Current ω

/-- What a step ends in: the state, and what stopped it. -/
abbrev Stepped (ω : Type) := Parsing ω × Option (Failure ω)

namespace Parsing

variable {ω : Type}

/-- The state before the first line. -/
def start (catalog : Catalog ω) : Parsing ω := ⟨catalog, [], [], "", .absent⟩

/-- The key of a nesting path. -/
def keyOf (sep : String) (path : List String) : String := sep.intercalate path

/-- The name of the template with a key, below an outermost one with the name `root`. -/
def nameOf (sep root key : String) : String :=
  if key.isEmpty then root else if root.isEmpty then key else root ++ sep ++ key

/-- The key of the open template. -/
def key (m : Markup) (st : Parsing ω) : String := keyOf m.pathSep st.path

/-- The template that is open, if it is made. -/
def currentTemplate? (m : Markup) (st : Parsing ω) : Option (Template ω) :=
  match st.current with
  | .absent => none
  | .stored => st.catalog.get? (st.key m)
  | .detached t => some t

/-- The state with the open template replaced. -/
def setCurrent (m : Markup) (st : Parsing ω) (t : Template ω) : Parsing ω :=
  match st.current with
  | .stored => { st with catalog := st.catalog.put (st.key m) t }
  | _ => { st with current := .detached t }

/-- The open template, made if it is not there; one that is there must have the right name. -/
def need (m : Markup) (root : String) (line : Nat) (st : Parsing ω) :
    Except (ParseError ω) (Template ω) :=
  let name := nameOf m.pathSep root (st.key m)
  match st.currentTemplate? m with
  | none => .ok (.blank name)
  | some t => if t.name = name then .ok t else .error (.nameMismatch t.name name line)

/-- Store the open template under its key, or among the duplicates if that is taken. -/
def store (m : Markup) (st : Parsing ω) : Parsing ω :=
  match st.current with
  | .detached t =>
    if (st.catalog.get? (st.key m)).isSome then
      { st with duplicates := st.duplicates.put (st.key m) t }
    else { st with catalog := st.catalog.put (st.key m) t }
  | _ => st

/-- The state with another path open and a break pending. -/
def enter (m : Markup) (st : Parsing ω) (path : List String) (pending : String) : Parsing ω :=
  let current := if (st.catalog.get? (keyOf m.pathSep path)).isSome then .stored else .absent
  { st with path, pending, current }

/-- The open template with the pending break added, if that is to be kept. -/
def withPending (st : Parsing ω) (keep : Bool) (t : Template ω) : Template ω :=
  if keep then t.addUtf8 st.pending.toList else t

/-- The break that is pending after a line which keeps it or not. -/
def breakAfter (m : Markup) (keep : Bool) : String := if keep then m.lineEnd else ""

/-! ### The four kinds of lines -/

/-- A start line: the template that is open is stored, and another one opened. -/
def openTemplate (m : Markup) (line : Nat) (name : Except Fault (Option String))
    (st : Parsing ω) : Stepped ω :=
  match name with
  | .error f => (st, some (.fault f))
  | .ok none => (st, some (.fault .nameWithoutText))
  | .ok (some name) =>
    if Text.occurs m.pathSep.toList name.toList then
      (st, some (.parse (.invalidName name m.pathSep line)))
    else (st.enter m (st.path ++ [name]) "", none)

/-- A start line, which may first add the pending break. -/
def stepStart (m : Markup) (root : String) (line : Nat) (lead : Except Fault Bool)
    (name : Except Fault (Option String)) (st : Parsing ω) : Stepped ω :=
  match lead with
  | .error f => (st, some (.fault f))
  | .ok false => (st.store m).openTemplate m line name
  | .ok true =>
    match st.need m root line with
    | .error e => (st, some (.parse e))
    | .ok t => ((st.setCurrent m (st.withPending true t)).store m).openTemplate m line name

/-- An end line: the template that is open is stored, and the one around it opened again. -/
def stepFinish (m : Markup) (line : Nat) (name : Except Fault (Option String))
    (trail : Except Fault Bool) (st : Parsing ω) : Stepped ω :=
  match name with
  | .error f => (st, some (.fault f))
  | .ok name =>
    if st.path.getLast?.isNone || st.path.getLast? != name then
      (st, some (.parse (.unexpectedEnd name st.path.getLast? line)))
    else
      -- the template is stored even if the break flag cannot be read
      let st := st.store m
      match trail with
      | .error f => (st, some (.fault f))
      | .ok keep => (st.enter m st.path.dropLast (breakAfter m keep), none)

/-- The open template with a placeholder added. -/
def addBlock (m : Markup) (name : Except Fault (Option String)) (trail : Except Fault Bool)
    (st : Parsing ω) (t : Template ω) : Stepped ω :=
  match name with
  | .error f => (st.setCurrent m t, some (.fault f))
  | .ok name =>
    match t.addPlaceholder (name.getD "") none with
    | .error f => (st.setCurrent m t, some (.fault f))
    | .ok t =>
      match trail with
      | .error f => (st.setCurrent m t, some (.fault f))
      | .ok keep => ({ st.setCurrent m t with pending := breakAfter m keep }, none)

/-- A line that is a placeholder. -/
def stepBlock (m : Markup) (root : String) (line : Nat) (lead : Except Fault Bool)
    (name : Except Fault (Option String)) (trail : Except Fault Bool) (st : Parsing ω) :
    Stepped ω :=
  match st.need m root line with
  | .error e => (st, some (.parse e))
  | .ok t =>
    match lead with
    -- a template made for the line stays, with nothing of the line in it
    | .error f => (st.setCurrent m t, some (.fault f))
    | .ok keep => st.addBlock m name trail (st.withPending keep t)

/-- The template with a text added, unless that is empty. -/
def addText (t : Template ω) (text : List Char) : Template ω :=
  if text.isEmpty then t else t.addUtf8 text

/-- The template with a text and the placeholder behind it added, unless they are empty. -/
def addMarked (t : Template ω) (piece : List Char × List Char) : Template ω :=
  match (addText t piece.1).addPlaceholder (String.ofList piece.2) none with
  | .ok t => t
  | .error _ => addText t piece.1

/-- The template with the texts and placeholders of a line added. -/
def addScan (t : Template ω) (scan : InlineScan) : Template ω :=
  addText (scan.marked.foldl addMarked t) scan.tail

/-- A plain line. -/
def stepPlain (m : Markup) (root : String) (line : Nat) (text : String) (st : Parsing ω) :
    Stepped ω :=
  match st.need m root line with
  | .error e => (st, some (.parse e))
  | .ok t =>
    let scan := InlineScan.ofLine m.inlineStart.toList m.inlineEnd.toList text.toList
    -- what stands before an unclosed placeholder is added too
    let st := st.setCurrent m (addScan (st.withPending true t) scan)
    match scan.unclosed with
    | some rest => (st, some (.parse (.unterminatedPlaceholder (String.ofList rest) line)))
    | none => ({ st with pending := m.lineEnd }, none)

/-- What a line does. -/
def step (m : Markup) (root : String) (line : Nat) (what : Markup.Line) (st : Parsing ω) :
    Stepped ω :=
  match what with
  | .start lead name => st.stepStart m root line lead name
  | .finish name trail => st.stepFinish m line name trail
  | .block lead name trail => st.stepBlock m root line lead name trail
  | .plain text => st.stepPlain m root line text

/-! ### Whole sources -/

/-- What lines do, the first of which has the number `line`, up to the first that fails. -/
def run (m : Markup) (root : String) :
    (line : Nat) → List String → Parsing ω → Stepped ω
  | _, [], st => (st, none)
  | line, text :: rest, st =>
    match st.step m root line (m.classify text) with
    | (st, none) => run m root (line + 1) rest st
    | (st, some e) => (st, some e)

/-- The end of a source: no sub-template may be open, and no key taken. -/
def close (m : Markup) (st : Parsing ω) : Stepped ω :=
  if !st.path.isEmpty then (st, some (.parse (.unterminatedNesting st.path)))
  else
    let st := st.store m
    if st.duplicates.isEmpty then (st, none)
    else (st, some (.parse (.duplicates st.duplicates)))

end Parsing

/-- A source parsed into a catalogue, its outermost template with the name `root`; the catalogue has
what was stored or continued, also when something stopped the parsing. -/
def Catalog.parse {ω : Type} (c : Catalog ω) (m : Markup) (root : String) (source : Lines) :
    Catalog ω × Option (Failure ω) :=
  match Parsing.run m root 1 source.lines (.start c) with
  | (st, some e) => (st.catalog, some e)
  | (st, none) =>
    -- the lines before the fault have been read by now
    match source.fault with
    | some f => (st.catalog, some (.fault f))
    | none =>
      let (st, e) := st.close m
      (st.catalog, e)

end Stencil
