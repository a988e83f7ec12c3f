import Stencil.Yaml.Scalar

/-!
# Tokens of YAML

A text of YAML is a row of tokens: marks, scalars, and the starts and ends of collections, which in
block style follow from indentation.  That a scalar or a flow collection is the key of a mapping is
known only at the colon behind it; the token of the key is then put before it.

Anchors, aliases, tags and directives are not supported.

## Main definitions

* `Token` — the tokens.
* `Scan` — what a reader of tokens knows at a place.
* `Token.ofText?` — the tokens of a text.
-/

namespace Stencil.Yaml

/-- A token. -/
inductive Token where
  /-- The start of a document. -/
  | documentStart
  /-- The end of a document. -/
  | documentEnd
  /-- The start of a sequence in block style. -/
  | sequenceStart
  /-- The start of a mapping in block style. -/
  | mappingStart
  /-- The end of a collection in block style. -/
  | blockEnd
  /-- The mark of an entry in block style. -/
  | blockEntry
  /-- The start of a sequence in flow style. -/
  | flowSequenceStart
  /-- The end of a sequence in flow style. -/
  | flowSequenceEnd
  /-- The start of a mapping in flow style. -/
  | flowMappingStart
  /-- The end of a mapping in flow style. -/
  | flowMappingEnd
  /-- The mark between entries in flow style. -/
  | flowEntry
  /-- What comes is a key. -/
  | key
  /-- What comes is the value of a key. -/
  | value
  /-- A scalar, which is plain or not. -/
  | scalar (text : List Char) (plain : Bool)
  deriving DecidableEq, Repr, Inhabited

/-- A place where a key may turn out to start. -/
structure KeyPlace where
  /-- How many tokens are before it. -/
  position : Nat
  /-- The place in the text. -/
  index : Nat
  /-- Its line. -/
  line : Nat
  /-- Its column. -/
  column : Nat
  /-- Whether there must be a key. -/
  required : Bool
  deriving Repr

/-- What a reader of tokens knows at a place. -/
structure Scan where
  /-- The place. -/
  at_ : Cursor
  /-- The tokens before it. -/
  tokens : Array Token
  /-- How many flow collections are open. -/
  flow : Nat
  /-- The column of the innermost block collection, `-1` outside of all. -/
  indent : Int
  /-- The columns of the block collections around it. -/
  outer : List Int
  /-- Whether a key may start here. -/
  keyAllowed : Bool
  /-- Where a key may have started, for the open flow collections from the innermost on and for the
  block collections. -/
  keys : List (Option KeyPlace)

namespace Scan

/-- The scan at the start of a text. -/
def start (text : List Char) : Scan := ⟨.start text, #[], 0, -1, [], true, [none]⟩

/-- The scan with one more token. -/
def push (st : Scan) (t : Token) : Scan := { st with tokens := st.tokens.push t }

/-- The scan with a token more and the next `width` characters passed. -/
def mark (st : Scan) (t : Token) (width : Nat) : Scan :=
  { st.push t with at_ := st.at_.skipMany width }

/-- The scan with a token put before the last ones. -/
def insert (st : Scan) (position : Nat) (t : Token) : Scan :=
  { st with
    tokens := (st.tokens.extract 0 position).push t ++
      st.tokens.extract position st.tokens.size }

/-- The scan with a key allowed or not. -/
def allowKey (st : Scan) (allowed : Bool) : Scan := { st with keyAllowed := allowed }

/-! ### Places of keys -/

/-- Forget the places that are too far away to start a key; one that must start a key is an
error. -/
def forgetStale (st : Scan) : Option Scan := do
  let keys ← st.keys.mapM fun key =>
    match key with
    | some k =>
      if k.line < st.at_.line || k.index + 1024 < st.at_.index then
        if k.required then failure else pure none
      else pure (some k)
    | none => pure none
  return { st with keys }

/-- Forget the place of the innermost collection; one that must start a key is an error. -/
def forgetKey (st : Scan) : Option Scan :=
  match st.keys with
  | some k :: rest => if k.required then none else some { st with keys := none :: rest }
  | _ => some st

/-- Remember the place, if a key may start here. -/
def saveKey (st : Scan) : Option Scan :=
  if !st.keyAllowed then some st
  else do
    let st ← st.forgetKey
    -- at the column of the collection nothing but a key can stand
    let required := st.flow == 0 && st.indent == st.at_.column
    return { st with
      keys := some ⟨st.tokens.size, st.at_.index, st.at_.line, st.at_.column, required⟩ ::
        st.keys.drop 1 }

/-! ### Indentation -/

/-- Open a block collection at a column, if that is further right than the innermost one; its token
is put at a position. -/
def roll (st : Scan) (column position : Nat) (t : Token) : Scan :=
  if st.flow == 0 && decide (st.indent < column) then
    { st.insert position t with indent := column, outer := st.indent :: st.outer }
  else st

/-- Close the block collections that are further right than a column. -/
def unrollTo (column : Int) : List Int → Scan → Scan
  | [], st => st
  | indent :: outer, st =>
    if decide (column < st.indent) then
      unrollTo column outer { st.push .blockEnd with indent, outer }
    else st

/-- Close the block collections that are further right than a column, outside of flow
collections. -/
def unroll (st : Scan) (column : Int) : Scan :=
  if st.flow == 0 then unrollTo column st.outer st else st

/-! ### Blanks and comments -/

/-- Pass blanks, comments and breaks. -/
def passBlanks : (fuel : Nat) → Scan → Scan
  | 0, st => st
  | fuel + 1, st =>
    let p := st.at_
    let p := if p.column == 0 && p.isAt '\ufeff' then p.skip else p
    -- a tab may not stand where a key could start
    let p := p.skipWhile fun c => c == ' ' || ((st.flow != 0 || !st.keyAllowed) && c == '\t')
    let p := if p.isAt '#' then p.skipWhile (fun c => !isBreak c) else p
    if p.next.any isBreak then
      passBlanks fuel { st with at_ := p.skipBreak, keyAllowed := st.keyAllowed || st.flow == 0 }
    else { st with at_ := p }

/-! ### Tokens -/

/-- A mark that parts documents. -/
def documentMark (st : Scan) (t : Token) : Option Scan := do
  let st ← (st.unroll (-1)).forgetKey
  return (st.mark t 3).allowKey false

/-- The start of a flow collection. -/
def openFlow (st : Scan) (t : Token) : Option Scan := do
  let st ← st.saveKey
  return ({ st with keys := none :: st.keys, flow := st.flow + 1 }.mark t 1).allowKey true

/-- The end of a flow collection. -/
def closeFlow (st : Scan) (t : Token) : Option Scan := do
  let st ← st.forgetKey
  let st := if st.flow == 0 then st else { st with keys := st.keys.drop 1, flow := st.flow - 1 }
  return (st.mark t 1).allowKey false

/-- The mark between entries of a flow collection. -/
def flowEntry (st : Scan) : Option Scan := do
  let st ← st.forgetKey
  return (st.mark .flowEntry 1).allowKey true

/-- The mark of an entry in block style. -/
def blockEntry (st : Scan) : Option Scan := do
  if st.flow == 0 && !st.keyAllowed then none
  let st ← (st.roll st.at_.column st.tokens.size .sequenceStart).forgetKey
  return (st.mark .blockEntry 1).allowKey true

/-- The mark of a key. -/
def explicitKey (st : Scan) : Option Scan := do
  if st.flow == 0 && !st.keyAllowed then none
  let st ← (st.roll st.at_.column st.tokens.size .mappingStart).forgetKey
  return (st.mark .key 1).allowKey (st.flow == 0)

/-- The mark of a value: what started at the remembered place was its key, if there is one. -/
def valueMark (st : Scan) : Option Scan :=
  match st.keys with
  | some k :: rest =>
    let st := { st with keys := none :: rest }
    -- the token of the key goes first, then that of its mapping before it
    let st := (st.insert k.position .key).roll k.column k.position .mappingStart
    some ((st.mark .value 1).allowKey false)
  | _ =>
    if st.flow == 0 && !st.keyAllowed then none
    else
      let allowed := st.flow == 0
      let st := st.roll st.at_.column st.tokens.size .mappingStart
      some ((st.mark .value 1).allowKey allowed)

/-- A block. -/
def block (st : Scan) (folded : Bool) : Option Scan := do
  let st ← st.forgetKey
  let (text, p) ← readBlock folded st.indent st.at_.skip
  return { (st.push (.scalar text false)).allowKey true with at_ := p }

/-- A quoted scalar. -/
def quoted (st : Scan) (single : Bool) : Option Scan := do
  let st ← st.saveKey
  let (text, p) ← readQuoted single st.at_
  return { (st.push (.scalar text false)).allowKey false with at_ := p }

/-- A plain scalar. -/
def plain (st : Scan) : Option Scan := do
  let st ← st.saveKey
  let s ← readPlain (st.flow != 0) (st.indent + 1) st.at_
  return { (st.push (.scalar s.text true)).allowKey s.broken with at_ := s.stop }

/-- The marks that start no plain scalar. -/
def marks : List Char :=
  ['-', '?', ':', ',', '[', ']', '\x7b', '\x7d', '#', '&', '*', '!', '|', '>', '\'', '"', '%', '@',
    '\x60']

/-- Whether a plain scalar starts here. -/
def startsPlain (st : Scan) : Bool :=
  let p := st.at_
  match p.next with
  | none => false
  | some c =>
    !(isGap c || isBreak c || marks.contains c) ||
      (c == '-' && !(p.ahead 1).any isGap) ||
      (st.flow == 0 && (c == '?' || c == ':') && !isGapOrEnd (p.ahead 1))

/-- Read the next token, `c` being the next character. -/
def readToken (st : Scan) (c : Char) : Option Scan :=
  let p := st.at_
  let alone := isGapOrEnd (p.ahead 1)
  if p.column == 0 && c == '%' then none
  else if p.isTriple '-' then st.documentMark .documentStart
  else if p.isTriple '.' then st.documentMark .documentEnd
  else if c == '[' then st.openFlow .flowSequenceStart
  else if c == '\x7b' then st.openFlow .flowMappingStart
  else if c == ']' then st.closeFlow .flowSequenceEnd
  else if c == '\x7d' then st.closeFlow .flowMappingEnd
  else if c == ',' then st.flowEntry
  else if c == '-' && alone then st.blockEntry
  else if c == '?' && (st.flow != 0 || alone) then st.explicitKey
  else if c == ':' && (st.flow != 0 || alone) then st.valueMark
  else if c == '|' && st.flow == 0 then st.block false
  else if c == '>' && st.flow == 0 then st.block true
  else if c == '\'' then st.quoted true
  else if c == '"' then st.quoted false
  else if st.startsPlain then st.plain
  else none

/-- Read the tokens up to the end. -/
def run : (fuel : Nat) → Scan → Option (List Token)
  | 0, _ => none
  | fuel + 1, st => do
    let st ← (passBlanks (st.at_.rest.length + 1) st).forgetStale
    -- the next token ends all collections that are further right
    let st := st.unroll st.at_.column
    match st.at_.next with
    | none =>
      let st ← (st.unroll (-1)).forgetKey
      return st.tokens.toList
    | some c =>
      let st ← st.readToken c
      run fuel st

end Scan

/-- Whether a character may stand in a text of YAML. -/
def isAllowed (c : Char) : Bool :=
  let n := c.toNat
  c == '\t' || c == '\n' || c == '\r' || n == 0x85 ||
    decide (0x20 ≤ n ∧ n ≤ 0x7e ∨ 0xa0 ≤ n ∧ n ≤ 0xd7ff ∨ 0xe000 ≤ n ∧ n ≤ 0xfffd ∨ 0x10000 ≤ n)

/-- The tokens of a text, if it is one of YAML. -/
def Token.ofText? (text : List Char) : Option (List Token) :=
  if text.all isAllowed then Scan.run (text.length + 1) (.start text) else none

end Stencil.Yaml
