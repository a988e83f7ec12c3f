import Stencil.Yaml.Token

/-!
# Nodes of YAML

A document of YAML is a tree of scalars, sequences and mappings.  A node that is left out is an
empty plain scalar.

## Main definitions

* `Node` — the nodes.
* `Node.ofTokens?` — the node of the only document in a row of tokens.
-/

namespace Stencil.Yaml

/-- A node. -/
inductive Node where
  /-- A scalar, which is plain or not. -/
  | scalar (text : List Char) (plain : Bool)
  /-- A sequence. -/
  | sequence (items : List Node)
  /-- A mapping. -/
  | mapping (entries : List (Node × Node))
  deriving Repr, Inhabited

namespace Node

/-- The node that is left out. -/
def omitted : Node := .scalar [] true

/-- Whether the next token is none of some. -/
def goesOn (enders : List Token) (ts : List Token) : Bool :=
  ts.head?.any fun t => !enders.contains t

mutual

/-- Read a node; in block style only if that is allowed, and a sequence without indentation only if
that is. -/
def read (inBlock loose : Bool) : (fuel : Nat) → List Token → Option (Node × List Token)
  | 0, _ => none
  | fuel + 1, ts =>
    match ts with
    | .scalar text plain :: ts => some (.scalar text plain, ts)
    | .flowSequenceStart :: ts =>
      (readFlowItems fuel true ts).map fun (items, ts) => (.sequence items, ts)
    | .flowMappingStart :: ts =>
      (readFlowEntries fuel true ts).map fun (entries, ts) => (.mapping entries, ts)
    | .sequenceStart :: ts =>
      if inBlock then (readItems fuel ts).map fun (items, ts) => (.sequence items, ts) else none
    | .mappingStart :: ts =>
      if inBlock then (readEntries fuel ts).map fun (entries, ts) => (.mapping entries, ts)
      else none
    | .blockEntry :: _ =>
      if loose then (readLooseItems fuel ts).map fun (items, ts) => (.sequence items, ts) else none
    | _ => none

/-- Read a node unless the next token is one of those that end it. -/
def readUnless (enders : List Token) (inBlock loose : Bool) :
    (fuel : Nat) → List Token → Option (Node × List Token)
  | 0, _ => none
  | fuel + 1, ts => if goesOn enders ts then read inBlock loose fuel ts else some (omitted, ts)

/-- Read the items of a sequence in block style. -/
def readItems : (fuel : Nat) → List Token → Option (List Node × List Token)
  | 0, _ => none
  | fuel + 1, ts =>
    match ts with
    | .blockEnd :: ts => some ([], ts)
    | .blockEntry :: ts => do
      let (item, ts) ← readUnless [.blockEntry, .blockEnd] true false fuel ts
      let (items, ts) ← readItems fuel ts
      return (item :: items, ts)
    | _ => none

/-- Read the items of a sequence that is not indented. -/
def readLooseItems : (fuel : Nat) → List Token → Option (List Node × List Token)
  | 0, _ => none
  | fuel + 1, ts =>
    match ts with
    | .blockEntry :: ts => do
      let (item, ts) ← readUnless [.blockEntry, .key, .value, .blockEnd] true false fuel ts
      let (items, ts) ← readLooseItems fuel ts
      return (item :: items, ts)
    | ts => some ([], ts)

/-- Read the entries of a mapping in block style. -/
def readEntries : (fuel : Nat) → List Token → Option (List (Node × Node) × List Token)
  | 0, _ => none
  | fuel + 1, ts =>
    match ts with
    | .blockEnd :: ts => some ([], ts)
    | .key :: ts => do
      let (key, ts) ← readUnless [.key, .value, .blockEnd] true true fuel ts
      let (value, ts) ← readValue [.key, .value, .blockEnd] true fuel ts
      let (entries, ts) ← readEntries fuel ts
      return ((key, value) :: entries, ts)
    | _ => none

/-- Read the value of a key, if there is one. -/
def readValue (enders : List Token) (inBlock : Bool) :
    (fuel : Nat) → List Token → Option (Node × List Token)
  | 0, _ => none
  | fuel + 1, ts =>
    match ts with
    | .value :: ts => readUnless enders inBlock inBlock fuel ts
    | ts => some (omitted, ts)

/-- Read the items of a sequence in flow style; between two of them there must be a mark. -/
def readFlowItems : (fuel : Nat) → (first : Bool) → List Token → Option (List Node × List Token)
  | 0, _, _ => none
  | fuel + 1, first, ts =>
    match first, ts with
    | _, .flowSequenceEnd :: ts => some ([], ts)
    | false, .flowEntry :: .flowSequenceEnd :: ts => some ([], ts)
    | true, ts => readFlowItem fuel ts
    | false, .flowEntry :: ts => readFlowItem fuel ts
    | false, _ => none

/-- Read an item of a sequence in flow style and those after it.  An item may be a mapping of a
single key. -/
def readFlowItem : (fuel : Nat) → List Token → Option (List Node × List Token)
  | 0, _ => none
  | fuel + 1, ts => do
    let (item, ts) ← match ts with
      | .key :: ts => do
        let (key, ts) ← readUnless [.value, .flowEntry, .flowSequenceEnd] false false fuel ts
        let (value, ts) ← readValue [.flowEntry, .flowSequenceEnd] false fuel ts
        pure (Node.mapping [(key, value)], ts)
      | ts => read false false fuel ts
    let (items, ts) ← readFlowItems fuel false ts
    return (item :: items, ts)

/-- Read the entries of a mapping in flow style; between two of them there must be a mark. -/
def readFlowEntries :
    (fuel : Nat) → (first : Bool) → List Token → Option (List (Node × Node) × List Token)
  | 0, _, _ => none
  | fuel + 1, first, ts =>
    match first, ts with
    | _, .flowMappingEnd :: ts => some ([], ts)
    | false, .flowEntry :: .flowMappingEnd :: ts => some ([], ts)
    | true, ts => readFlowPair fuel ts
    | false, .flowEntry :: ts => readFlowPair fuel ts
    | false, _ => none

/-- Read an entry of a mapping in flow style and those after it.  A node that is marked as no key is
a key without a value. -/
def readFlowPair : (fuel : Nat) → List Token → Option (List (Node × Node) × List Token)
  | 0, _ => none
  | fuel + 1, ts => do
    let (entry, ts) ← match ts with
      | .key :: ts => do
        let (key, ts) ← readUnless [.value, .flowEntry, .flowMappingEnd] false false fuel ts
        let (value, ts) ← readValue [.flowEntry, .flowMappingEnd] false fuel ts
        pure ((key, value), ts)
      | ts => do
        let (key, ts) ← read false false fuel ts
        pure ((key, omitted), ts)
    let (entries, ts) ← readFlowEntries fuel false ts
    return (entry :: entries, ts)

end

/-- The tokens without the ends of documents at their start. -/
def afterEnds (ts : List Token) : List Token := ts.dropWhile (· == .documentEnd)

/-- The node of the only document in a row of tokens; that of no document is left out. -/
def ofTokens? (ts : List Token) : Option Node := do
  let ts := afterEnds ts
  let ts := match ts with
    | .documentStart :: ts => ts
    | ts => ts
  let (node, ts) ← readUnless [.documentStart, .documentEnd] true false (4 * ts.length + 8) ts
  if (afterEnds ts).isEmpty then some node else none

end Node

end Stencil.Yaml
