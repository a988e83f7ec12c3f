import Stencil.Fault
import Stencil.Pattern.Match

/-!
# Reading patterns

A pattern is written as choices separated by bars; a choice is a row of items, each a character, an
escape, a set in square brackets, a group in round ones, a point, or a place; an item may be
followed by a repetition: a star, a plus, a question mark or a count in curly brackets, with a
question mark or a plus behind it for the other two kinds.  A brace that opens no count stands for
itself.

A group that starts with a question mark has no number, or a name, or says that letter case is put
aside, which only the start of a pattern may say.

A text that is no pattern is a fault, and so is a count that is too large; the first one in the text
is told.

## Main definitions

* `Pattern.ofText` — the pattern that a text is, or the fault of one that is none.
* `Pattern.Compiler` — what makes patterns of texts.
-/

namespace Stencil.Pattern

/-- What is known while a pattern is read. -/
structure Reading where
  /-- How many groups were opened. -/
  groups : Nat
  /-- The numbers of the named groups. -/
  names : List (String × Nat)
  /-- The groups that are not closed. -/
  unclosed : List Nat
  /-- Whether letter case is put aside. -/
  caseless : Bool
  deriving Repr, Inhabited

/-- An item that an escape stands for. -/
inductive Escaped where
  /-- A character. -/
  | char (c : Char)
  /-- A class. -/
  | ofClass (k : CharClass) (inside : Bool)
  /-- A place. -/
  | anchor (a : Anchor)
  deriving Repr

/-- The value of a hexadecimal digit. -/
def hexValue? (c : Char) : Option Nat :=
  if c.isDigit then some (c.toNat - 48)
  else if 'a' ≤ c ∧ c ≤ 'f' then some (c.toNat - 87)
  else if 'A' ≤ c ∧ c ≤ 'F' then some (c.toNat - 55)
  else none

/-- The character of a code point given by exactly `n` hexadecimal digits, and the rest. -/
def takeHex (n : Nat) (s : List Char) : Option (Escaped × List Char) :=
  let ds := s.take n
  if ds.length < n then none
  else
    match ds.mapM hexValue? with
    | none => none
    | some vs =>
      let code := Text.natOfDigits 16 vs
      if code.isValidChar then some (.char (Char.ofNat code), s.drop n) else none

/-- Whether a character is an octal digit. -/
def isOctal (c : Char) : Bool := decide ('0' ≤ c ∧ c ≤ '7')

/-- The character of up to three octal digits, and the rest. -/
def takeOctal (s : List Char) : Option (Escaped × List Char) :=
  let ds := (s.take 3).takeWhile isOctal
  let code := ds.foldl (fun n c => n * 8 + (c.toNat - 48)) 0
  if code ≤ 0xFF then some (.char (Char.ofNat code), s.drop ds.length) else none

/-- The control character that a letter stands for after a backslash. -/
def controlEscape? (c : Char) : Option Char :=
  match c with
  | 'a' => some '\x07'
  | 'f' => some '\x0c'
  | 'n' => some '\n'
  | 'r' => some '\r'
  | 't' => some '\t'
  | 'v' => some '\x0b'
  | _ => none

/-- The class that a letter stands for after a backslash. -/
def classEscape? (c : Char) : Option (CharClass × Bool) :=
  match c with
  | 'w' => some (.word, true)
  | 'W' => some (.word, false)
  | 'd' => some (.digit, true)
  | 'D' => some (.digit, false)
  | 's' => some (.blank, true)
  | 'S' => some (.blank, false)
  | _ => none

/-- The place that a letter stands for after a backslash. -/
def anchorEscape? (c : Char) : Option Anchor :=
  match c with
  | 'A' => some .start
  | 'Z' => some .veryEnd
  | 'b' => some (.boundary true)
  | 'B' => some (.boundary false)
  | _ => none

/-- What follows a backslash inside of a set or outside, but for digits, and the rest. -/
def takeEscape (inSet : Bool) : List Char → Option (Escaped × List Char)
  | [] => none
  | c :: s =>
    match classEscape? c, controlEscape? c with
    | some (k, inside), _ => some (.ofClass k inside, s)
    | none, some d => some (.char d, s)
    | none, none =>
      if c = 'x' then takeHex 2 s
      else if c = 'u' then takeHex 4 s
      else if c = 'U' then takeHex 8 s
      else if c = 'b' ∧ inSet then some (.char '\x08', s)
      else if c.isDigit then none
      else
        match if inSet then none else anchorEscape? c with
        | some a => some (.anchor a, s)
        | none => if c.isAlpha then none else some (.char c, s)

/-- One member of a set, and the rest; the member is a character or a class. -/
def takeMember : List Char → Option (Escaped × List Char)
  | [] => none
  | '\\' :: c :: s => if isOctal c then takeOctal (c :: s) else takeEscape true (c :: s)
  | ['\\'] => none
  | c :: s => some (.char c, s)

/-- A member of a set as an item. -/
def Escaped.toItem? : Escaped → Option SetItem
  | .char c => some (.range c c)
  | .ofClass k inside => some (.ofClass k inside)
  | .anchor _ => none

/-- The items of a set up to the bracket that closes it, and the rest.  A bracket at the start
stands for itself, and so does a dash at the end. -/
def takeItems : (fuel : Nat) → (items : List SetItem) → List Char →
    Option (List SetItem × List Char)
  | 0, _, _ => none
  | fuel + 1, items, s =>
    match s with
    | [] => none
    | c :: rest =>
      if c = ']' ∧ !items.isEmpty then some (items.reverse, rest)
      else
        match takeMember s with
        | none => none
        | some (member, '-' :: ']' :: rest) =>
          member.toItem?.map fun item => ((.range '-' '-' :: item :: items).reverse, rest)
        | some (member, '-' :: rest) =>
          match member, takeMember rest with
          | .char first, some (.char last, rest) =>
            if first.toNat ≤ last.toNat then takeItems fuel (.range first last :: items) rest
            else none
          | _, _ => none
        | some (member, rest) =>
          match member.toItem? with
          | some item => takeItems fuel (item :: items) rest
          | none => none

/-- A set after the bracket that opens it, and the rest. -/
def takeSet (s : List Char) : Option (Node × List Char) :=
  match s with
  | '^' :: s => (takeItems (s.length + 1) [] s).map fun (items, rest) => (.set items false, rest)
  | s => (takeItems (s.length + 1) [] s).map fun (items, rest) => (.set items true, rest)

/-- What a brace opens. -/
inductive Brace where
  /-- No count: the brace stands for itself. -/
  | literal
  /-- A count from some digits to others, either of which may be missing, and the rest. -/
  | count (low high : List Char) (rest : List Char)

/-- What is after a brace. -/
def takeBrace (s : List Char) : Brace :=
  let low := s.takeWhile Char.isDigit
  match s.dropWhile Char.isDigit with
  | ',' :: t =>
    match t.dropWhile Char.isDigit with
    | '\x7d' :: rest => .count low (t.takeWhile Char.isDigit) rest
    | _ => .literal
  | '\x7d' :: rest => if low.isEmpty then .literal else .count low low rest
  | _ => .literal

/-- The least count that is too large. -/
def countLimit : Nat := 0xFFFFFFFF

/-- The count that ASCII digits spell, if there are any. -/
def countOf [DigitLimit] (ds : List Char) : Except Fault (Option Nat) :=
  if ds.isEmpty then .ok none
  else
    match DigitLimit.exceeded? ds.length with
    | some most => .error (.notWhole (.tooManyDigits most ds.length))
    | none =>
      let n := ds.foldl (fun n c => n * 10 + (c.toNat - 48)) 0
      if countLimit ≤ n then .error .repetitionTooLarge else .ok (some n)

/-- The kind of a repetition, by what is behind it, and the rest. -/
def takeGreed : List Char → Greed × List Char
  | '?' :: s => (.least, s)
  | '+' :: s => (.fixed, s)
  | s => (.most, s)

/-- The last item repeated, if it can be. -/
def repeatLast (least : Nat) (most : Option Nat) (items : List Node) (s : List Char) :
    Option (List Node × List Char) :=
  match items with
  | [] => none
  | item :: before =>
    if item.isAnchor || item.isLoop || most.any (· < least) then none
    else
      let (greed, rest) := takeGreed s
      some (.loop least most greed item :: before, rest)

/-- The text up to a mark, which must come, and the rest. -/
def takeUntil (mark : Char) (s : List Char) : Option (String × List Char) :=
  match s.dropWhile (· ≠ mark) with
  | _ :: rest => some (String.ofList (s.takeWhile (· ≠ mark)), rest)
  | [] => none

/-- Whether a text may name a group. -/
def isGroupName (name : String) : Bool :=
  match name.toList with
  | [] => false
  | c :: s => (Text.isWord c && !Text.isDigit c) && s.all Text.isWord

/-- What a bracket opens. -/
inductive Opening where
  /-- A group with a name or without. -/
  | group (name : Option String)
  /-- A part that no group remembers. -/
  | bracketed
  /-- A part that is settled once it is matched. -/
  | settled
  /-- What a named group matched. -/
  | again (name : String)
  /-- A comment. -/
  | comment
  /-- The word that letter case is put aside. -/
  | caseless
  deriving Repr

/-- What the text after a round bracket opens, and the rest. -/
def takeOpening : List Char → Option (Opening × List Char)
  | '?' :: 'P' :: '<' :: s =>
    (takeUntil '>' s).bind fun (name, rest) =>
      if isGroupName name then some (.group (some name), rest) else none
  | '?' :: 'P' :: '=' :: s =>
    (takeUntil ')' s).bind fun (name, rest) =>
      if isGroupName name then some (.again name, rest) else none
  | '?' :: ':' :: s => some (.bracketed, s)
  | '?' :: '>' :: s => some (.settled, s)
  | '?' :: '#' :: s => (takeUntil ')' s).map fun (_, rest) => (.comment, rest)
  | '?' :: 'i' :: ')' :: s => some (.caseless, s)
  | '?' :: _ => none
  | s => some (.group none, s)

/-- The group that digits after a backslash refer to, or the character of octal ones; and the
rest. -/
def takeReference (st : Reading) (s : List Char) : Option (Node × List Char) :=
  let octal := fun (r : Option (Escaped × List Char)) => match r with
    | some (.char c, rest) => some (Node.char c, rest)
    | _ => none
  match s with
  | '0' :: _ => octal (takeOctal s)
  | a :: b :: c :: _ =>
    -- three octal digits are a character, and other digits the number of a group
    if isOctal a && isOctal b && isOctal c then octal (takeOctal s)
    else if b.isDigit then refer ((a.toNat - 48) * 10 + (b.toNat - 48)) (s.drop 2)
    else refer (a.toNat - 48) (s.drop 1)
  | [a, b] =>
    if b.isDigit then refer ((a.toNat - 48) * 10 + (b.toNat - 48)) []
    else refer (a.toNat - 48) [b]
  | [a] => refer (a.toNat - 48) []
  | [] => none
where
  /-- A reference to a group that is closed. -/
  refer (n : Nat) (rest : List Char) : Option (Node × List Char) :=
    if n ≤ st.groups ∧ !st.unclosed.contains n then some (.again n, rest) else none

/-- An item after a backslash, and the rest. -/
def takeEscapedNode (st : Reading) (s : List Char) : Option (Node × List Char) :=
  match s with
  | [] => none
  | c :: _ =>
    if c.isDigit then takeReference st s
    else
      match takeEscape false s with
      | some (.char d, rest) => some (.char d, rest)
      | some (.ofClass k inside, rest) => some (.set [.ofClass k inside] true, rest)
      | some (.anchor a, rest) => some (.anchor a, rest)
      | none => none

/-- The reading with a group opened, unless its name is taken; and the group's number. -/
def Reading.openGroup (st : Reading) (name : Option String) : Option (Reading × Nat) :=
  let n := st.groups + 1
  match name with
  | none => some ({ st with groups := n, unclosed := n :: st.unclosed }, n)
  | some s =>
    if (st.names.lookup s).isSome then none
    else some ({ st with
      groups := n, unclosed := n :: st.unclosed, names := st.names ++ [(s, n)] }, n)

mutual

/-- Choices up to a closing bracket or the end, and the rest; `outer` at the start of a pattern. -/
def readChoices [DigitLimit] : (fuel : Nat) → (outer : Bool) → Reading → List Char →
    Except Fault (Node × Reading × List Char)
  | 0, _, _, _ => .error .badPattern
  | fuel + 1, outer, st, s =>
    match readItems fuel outer [] st s with
    | .error f => .error f
    | .ok (first, st, '|' :: rest) =>
      match readChoices fuel false st rest with
      | .ok (second, st, rest) => .ok (.choice first second, st, rest)
      | .error f => .error f
    | .ok r => .ok r

/-- Items up to a bar, a closing bracket or the end, after those read; and the rest. -/
def readItems [DigitLimit] : (fuel : Nat) → (outer : Bool) → (items : List Node) → Reading →
    List Char → Except Fault (Node × Reading × List Char)
  | 0, _, _, _, _ => .error .badPattern
  | fuel + 1, outer, items, st, s =>
    let loop := fun least most rest =>
      match repeatLast least most items rest with
      | some (items, rest) => readItems fuel outer items st rest
      | none => .error .badPattern
    -- a character that stands for itself
    let literal := fun c rest => readItems fuel outer (.char c :: items) st rest
    match s with
    | [] | '|' :: _ | ')' :: _ => .ok (.ofList items.reverse, st, s)
    | '*' :: rest => loop 0 none rest
    | '+' :: rest => loop 1 none rest
    | '?' :: rest => loop 0 (some 1) rest
    | '\x7b' :: rest =>
      match takeBrace rest with
      | .literal => literal '\x7b' rest
      | .count low high rest =>
        match countOf low, countOf high with
        | .error f, _ => .error f
        | .ok _, .error f => .error f
        | .ok least, .ok most => loop (least.getD 0) most rest
    | '.' :: rest => readItems fuel outer (.any :: items) st rest
    | '^' :: rest => readItems fuel outer (.anchor .start :: items) st rest
    | '$' :: rest => readItems fuel outer (.anchor .finish :: items) st rest
    | '[' :: rest =>
      match takeSet rest with
      | some (node, rest) => readItems fuel outer (node :: items) st rest
      | none => .error .badPattern
    | '\\' :: rest =>
      match takeEscapedNode st rest with
      | some (node, rest) => readItems fuel outer (node :: items) st rest
      | none => .error .badPattern
    | '(' :: rest =>
      let enclosed := fun (st : Reading) (rest : List Char) (node : Node → Node)
          (close : Reading → Reading) =>
        match readChoices fuel false st rest with
        | .ok (inner, st, ')' :: rest) =>
          readItems fuel outer (node inner :: items) (close st) rest
        | .ok _ => .error .badPattern
        | .error f => .error f
      match takeOpening rest with
      | none => .error .badPattern
      | some (.comment, rest) => readItems fuel outer items st rest
      | some (.caseless, rest) =>
        if outer && items.isEmpty then
          readItems fuel outer items { st with caseless := true } rest
        else .error .badPattern
      | some (.again name, rest) =>
        match st.names.lookup name with
        | some n =>
          if st.unclosed.contains n then .error .badPattern
          else readItems fuel outer (.again n :: items) st rest
        | none => .error .badPattern
      | some (.bracketed, rest) => enclosed st rest .bracketed id
      | some (.settled, rest) => enclosed st rest .settled id
      | some (.group name, rest) =>
        match st.openGroup name with
        | none => .error .badPattern
        | some (st, n) =>
          enclosed st rest (.group n) fun st =>
            { st with unclosed := st.unclosed.filter (· ≠ n) }
    | c :: rest => literal c rest

end

/-- The pattern that a text is, or the fault of one that is none. -/
def ofText [DigitLimit] (source : String) : Except Fault Pattern :=
  let s := source.toList
  match readChoices (2 * s.length + 2) true default s with
  | .ok (root, st, []) => .ok ⟨source, root, st.groups, st.names, st.caseless⟩
  | .ok _ => .error .badPattern
  | .error f => .error f

/-- What makes patterns of texts, or gives up. -/
abbrev Compiler := String → Except Fault Pattern

end Stencil.Pattern
