import Stencil.Yaml.Cursor

/-!
# Scalars of YAML

A scalar is plain, in single or double quotes, or a block.  A plain or quoted scalar may go over
several lines; a single break in it counts as a space, and of several breaks the first one does not
count.  A block keeps its breaks, or folds them in the same way between lines that are not indented
further.

The readers answer with the text of the scalar and the place behind it, or nothing where there is
no scalar.

## Main definitions

* `Blanks`, `Blanks.text` — the blanks between two words and what they count as.
* `readPlain`, `readQuoted`, `readBlock` — the three kinds of scalars.
-/

namespace Stencil.Yaml

/-! ### Blanks between words -/

/-- The gaps and breaks between two words. -/
structure Blanks where
  /-- The gaps before the first break. -/
  gaps : List Char
  /-- Whether there is a break. -/
  broken : Bool
  /-- The first break. -/
  first : List Char
  /-- The other breaks. -/
  others : List Char

/-- No blanks. -/
def Blanks.none : Blanks := ⟨[], false, [], []⟩

/-- What blanks count as. -/
def Blanks.text (b : Blanks) : List Char :=
  if !b.broken then b.gaps
  else if b.first = ['\n'] then (if b.others.isEmpty then [' '] else b.others)
  else b.first ++ b.others

/-- Read gaps and breaks; behind a break, a tab before the column `indent` is not allowed. -/
def readBlanks (indent : Int) : (fuel : Nat) → Cursor → Blanks → Option (Cursor × Blanks)
  | 0, p, b => some (p, b)
  | fuel + 1, p, b =>
    match p.next with
    | Option.none => some (p, b)
    | some c =>
      if isGap c then
        if b.broken && c == '\t' && decide ((p.column : Int) < indent) then Option.none
        else
          readBlanks indent fuel p.skip (if b.broken then b else { b with gaps := b.gaps ++ [c] })
      else if isBreak c then
        let here := [p.breakChar]
        readBlanks indent fuel p.skipBreak
          (if b.broken then { b with others := b.others ++ here }
            else { b with broken := true, first := here })
      else some (p, b)

/-! ### Plain scalars -/

/-- The characters that end a plain scalar in a flow collection. -/
def flowMarks : List Char := [',', '[', ']', '\x7b', '\x7d']

/-- The next word of a plain scalar; a colon in it must not stand before a mark of a flow
collection. -/
def readWord (inFlow : Bool) : List Char → Option (List Char)
  | [] => some []
  | c :: rest =>
    let after := rest.head?
    if isGap c || isBreak c then some []
    -- no scalar, rather than one that ends
    else if inFlow && c == ':' && after.any fun d => d == '?' || flowMarks.contains d then none
    else if c == ':' && isGapOrEnd after then some []
    else if inFlow && flowMarks.contains c then some []
    else (readWord inFlow rest).map (c :: ·)

/-- A scalar, the place behind it, and whether a break was passed after it. -/
structure PlainScalar where
  /-- The text. -/
  text : List Char
  /-- The place behind it. -/
  stop : Cursor
  /-- Whether a break was passed after it. -/
  broken : Bool

/-- Read the words of a plain scalar that is indented by `indent` at the least. -/
def readWords (inFlow : Bool) (indent : Int) :
    (fuel : Nat) → Cursor → (text : List Char) → Blanks → Option PlainScalar
  | 0, p, text, b => some ⟨text, p, b.broken⟩
  | fuel + 1, p, text, b =>
    if p.isDocumentMark || p.isAt '#' then some ⟨text, p, b.broken⟩
    else do
      let word ← readWord inFlow p.rest
      if word.isEmpty then return ⟨text, p, b.broken⟩
      let text := text ++ b.text ++ word
      let p := p.skipMany word.length
      if p.next.all fun c => !(isGap c || isBreak c) then return ⟨text, p, false⟩
      let (p, b) ← readBlanks indent (p.rest.length + 1) p .none
      if !inFlow && decide ((p.column : Int) < indent) then return ⟨text, p, b.broken⟩
      readWords inFlow indent fuel p text b

/-- Read a plain scalar that is indented by `indent` at the least. -/
def readPlain (inFlow : Bool) (indent : Int) (p : Cursor) : Option PlainScalar :=
  readWords inFlow indent (p.rest.length + 1) p [] .none

/-! ### Quoted scalars -/

/-- The characters that stand for others behind a backslash. -/
def escapes : List (Char × Char) :=
  [('0', '\x00'), ('a', '\x07'), ('b', '\x08'), ('t', '\t'), ('\t', '\t'), ('n', '\n'),
    ('v', '\x0b'), ('f', '\x0c'), ('r', '\r'), ('e', '\x1b'), (' ', ' '), ('"', '"'), ('/', '/'),
    ('\\', '\\'), ('N', '\u0085'), ('_', '\u00a0'), ('L', '\u2028'), ('P', '\u2029')]

/-- How many hexadecimal digits follow a letter behind a backslash. -/
def codeWidth? : Char → Option Nat
  | 'x' => some 2
  | 'u' => some 4
  | 'U' => some 8
  | _ => none

/-- The value of a hexadecimal digit. -/
def hexValue? (c : Char) : Option Nat :=
  if c.isDigit then some (c.toNat - 48)
  else if 'a' ≤ c ∧ c ≤ 'f' then some (c.toNat - 87)
  else if 'A' ≤ c ∧ c ≤ 'F' then some (c.toNat - 55)
  else none

/-- The number in hexadecimal digits. -/
def hexNumber? (s : List Char) : Option Nat :=
  s.foldlM (fun n c => (hexValue? c).map (n * 16 + ·)) 0

theorem isValidChar_ofNat {code : Nat} (h : code.isValidChar) :
    (UInt32.ofNat code).isValidChar := by
  have small : code < 4294967296 := by
    rcases h with h | ⟨_, h⟩ <;> omega
  simpa [UInt32.isValidChar, Nat.mod_eq_of_lt small] using h

/-- The character behind a backslash and how many characters it takes. -/
def readEscape (s : List Char) : Option (Char × Nat) :=
  match s with
  | [] => none
  | c :: rest =>
    match escapes.lookup c with
    | some d => some (d, 1)
    | none => do
      let width ← codeWidth? c
      if rest.length < width then none
      else
        let code ← hexNumber? (rest.take width)
        if h : code.isValidChar then some (⟨UInt32.ofNat code, isValidChar_ofNat h⟩, width + 1)
        else none

/-- Read a piece of a quoted scalar up to a blank or the closing quote.  The answer also tells
whether it ended in an escaped break. -/
def readPiece (single : Bool) :
    (fuel : Nat) → Cursor → (text : List Char) → Option (List Char × Cursor × Bool)
  | 0, p, text => some (text, p, false)
  | fuel + 1, p, text =>
    match p.next with
    | none => some (text, p, false)
    | some c =>
      if isGap c || isBreak c then some (text, p, false)
      else if single then
        if c == '\'' then
          if p.ahead 1 == some '\'' then readPiece single fuel (p.skipMany 2) (text ++ ['\''])
          else some (text, p, false)
        else readPiece single fuel p.skip (text ++ [c])
      else if c == '"' then some (text, p, false)
      else if c == '\\' then
        if (p.ahead 1).any isBreak then some (text, p.skip.skipBreak, true)
        else do
          let (d, width) ← readEscape (p.rest.drop 1)
          readPiece single fuel (p.skipMany (width + 1)) (text ++ [d])
      else readPiece single fuel p.skip (text ++ [c])

/-- Read the pieces of a quoted scalar up to the closing quote. -/
def readPieces (single : Bool) :
    (fuel : Nat) → Cursor → (text : List Char) → Option (List Char × Cursor)
  | 0, _, _ => none
  | fuel + 1, p, text =>
    if p.isDocumentMark || p.next.isNone then none
    else do
      let (text, p, escaped) ← readPiece single (p.rest.length + 1) p text
      if p.isAt (if single then '\'' else '"') then return (text, p.skip)
      let (p, b) ← readBlanks (-1) (p.rest.length + 1) p { Blanks.none with broken := escaped }
      readPieces single fuel p (text ++ b.text)

/-- Read a quoted scalar, the place being at its opening quote. -/
def readQuoted (single : Bool) (p : Cursor) : Option (List Char × Cursor) :=
  readPieces single (p.rest.length + 1) p.skip []

/-! ### Blocks -/

/-- What becomes of the breaks at the end of a block. -/
inductive Chomping where
  /-- None is kept. -/
  | strip
  /-- One is kept. -/
  | clip
  /-- All are kept. -/
  | keep
  deriving DecidableEq, Repr

/-- The sign of a chomping. -/
def chomping? : Option Char → Option Chomping
  | some '+' => some .keep
  | some '-' => some .strip
  | _ => none

/-- Read the signs behind the start of a block: its chomping, and how far it is indented. -/
def readHeader (p : Cursor) : Option (Chomping × Nat × Cursor) :=
  let step? (p : Cursor) : Option Nat := p.next.bind fun c =>
    if c.isDigit then some (c.toNat - 48) else none
  match chomping? p.next, step? p with
  | some chomp, _ =>
    match step? p.skip with
    | some 0 => none
    | some n => some (chomp, n, p.skip.skip)
    | none => some (chomp, 0, p.skip)
  | none, some 0 => none
  | none, some n =>
    match chomping? p.skip.next with
    | some chomp => some (chomp, n, p.skip.skip)
    | none => some (.clip, n, p.skip)
  | none, none => some (.clip, 0, p)

/-- Read the indentation and the empty lines before a line of a block that is indented by `indent`,
or by any number of spaces if that is zero; the answer has the widest indentation. -/
def readMargin (indent : Nat) :
    (fuel : Nat) → Cursor → (breaks : List Char) → (widest : Nat) →
      Option (Cursor × List Char × Nat)
  | 0, p, breaks, widest => some (p, breaks, widest)
  | fuel + 1, p, breaks, widest =>
    let room := if indent = 0 then p.rest.length else indent - p.column
    let spaces := (p.rest.take room).takeWhile (· == ' ')
    let p := p.skipMany spaces.length
    let widest := max widest p.column
    if (indent = 0 || p.column < indent) && p.isAt '\t' then none
    else if p.next.any isBreak then
      readMargin indent fuel p.skipBreak (breaks ++ [p.breakChar]) widest
    else some (p, breaks, widest)

/-- The state between two lines of a block. -/
structure BlockLines where
  /-- The text so far. -/
  text : List Char
  /-- The break after the last line. -/
  lead : List Char
  /-- The breaks of the empty lines after it. -/
  trail : List Char
  /-- Whether the last line starts with a gap. -/
  gapped : Bool

/-- Read the lines of a block. -/
def readLines (folded : Bool) (indent : Nat) :
    (fuel : Nat) → Cursor → BlockLines → Option (BlockLines × Cursor)
  | 0, p, st => some (st, p)
  | fuel + 1, p, st =>
    if p.column ≠ indent || p.next.isNone then some (st, p)
    else do
      let gapped := p.next.any isGap
      -- folded lines are joined, unless one of the two starts with a gap
      let joint :=
        if folded && st.lead.head? == some '\n' && !st.gapped && !gapped then
          (if st.trail.isEmpty then [' '] else [])
        else st.lead
      let (line, p) := p.takeWhile (fun c => !isBreak c)
      let text := st.text ++ joint ++ st.trail ++ line
      let (lead, p) := if p.next.isNone then ([], p) else ([p.breakChar], p.skipBreak)
      let (p, trail, _) ← readMargin indent (p.rest.length + 1) p [] 0
      readLines folded indent fuel p ⟨text, lead, trail, gapped⟩

/-- Read a block, the place being behind its first sign, in a collection that is indented by
`outer`. -/
def readBlock (folded : Bool) (outer : Int) (p : Cursor) : Option (List Char × Cursor) := do
  let (chomp, step, p) ← readHeader p
  let p := p.skipWhile isGap
  let p := if p.isAt '#' then p.skipWhile (fun c => !isBreak c) else p
  if !isBreakOrEnd p.next then none
  let p := if p.next.isNone then p else p.skipBreak
  let fixed : Nat := if step = 0 then 0 else (max outer 0).toNat + step
  let (p, trail, widest) ← readMargin fixed (p.rest.length + 1) p [] 0
  -- if no sign tells the indentation, it is that of the first line, or of an empty one before it
  let indent := if fixed = 0 then max (max widest (outer + 1).toNat) 1 else fixed
  let (st, p) ← readLines folded indent (p.rest.length + 1) p ⟨[], [], trail, false⟩
  let text := match chomp with
    | .strip => st.text
    | .clip => st.text ++ st.lead
    | .keep => st.text ++ st.lead ++ st.trail
  return (text, p)

end Stencil.Yaml
