import Stencil.Text.Blank
import Stencil.Text.Case
import Stencil.Text.Digit
import Stencil.Text.Word

/-!
# Patterns

A pattern describes pieces of text: characters and sets of characters, anchors, groups that remember
what they matched, choices and repetitions.  A repetition takes as much as it can, as little as it
can, or as much as it can without giving back.

## Main definitions

* `Pattern.Node` — the parts of a pattern.
* `Pattern` — a pattern with its groups.
* `Pattern.literalSource` — the pattern of a text that stands for itself.
-/

namespace Stencil

namespace Pattern

/-- A class of characters. -/
inductive CharClass where
  /-- Word characters. -/
  | word
  /-- Decimal digits. -/
  | digit
  /-- White space. -/
  | blank
  deriving DecidableEq, Repr, Inhabited

/-- Whether a character is of a class. -/
def CharClass.contains : CharClass → Char → Bool
  | word, c => Text.isWord c
  | digit, c => Text.isDigit c
  | blank, c => Text.isBlank c

/-- A part of a set of characters. -/
inductive SetItem where
  /-- The characters from one to another. -/
  | range (first last : Char)
  /-- The characters of a class, or those outside of it. -/
  | ofClass (k : CharClass) (inside : Bool)
  deriving DecidableEq, Repr, Inhabited

/-- How a repetition chooses its count. -/
inductive Greed where
  /-- As much as it can. -/
  | most
  /-- As little as it can. -/
  | least
  /-- As much as it can, without giving back. -/
  | fixed
  deriving DecidableEq, Repr, Inhabited

/-- A place in a text that has no width. -/
inductive Anchor where
  /-- The start of the text. -/
  | start
  /-- The end of the text, or before a line feed there. -/
  | finish
  /-- The very end of the text. -/
  | veryEnd
  /-- Between a word character and another one, or the other way round; or not so. -/
  | boundary (inside : Bool)
  deriving DecidableEq, Repr, Inhabited

/-- A part of a pattern. -/
inductive Node where
  /-- Nothing. -/
  | empty
  /-- Any character but a line feed. -/
  | any
  /-- A character of a set, or one outside of it. -/
  | set (items : List SetItem) (inside : Bool)
  /-- A place. -/
  | anchor (a : Anchor)
  /-- What a group matched. -/
  | again (group : Nat)
  /-- A part that a group remembers. -/
  | group (index : Nat) (inner : Node)
  /-- A part in brackets that no group remembers. -/
  | bracketed (inner : Node)
  /-- A part that is not matched in another way once it is matched. -/
  | settled (inner : Node)
  /-- A part, then another. -/
  | seq (first second : Node)
  /-- A part, or else another. -/
  | choice (first second : Node)
  /-- A part repeated. -/
  | loop (least : Nat) (most : Option Nat) (greed : Greed) (inner : Node)
  deriving DecidableEq, Repr, Inhabited

/-- A single character. -/
def Node.char (c : Char) : Node := .set [.range c c] true

/-- Whether the part is a place, which cannot be repeated. -/
def Node.isAnchor : Node → Bool
  | .anchor _ => true
  | _ => false

/-- Whether the part is a repetition, which cannot be repeated again. -/
def Node.isLoop : Node → Bool
  | .loop _ _ _ _ => true
  | _ => false

/-- Parts one after the other. -/
def Node.ofList : List Node → Node
  | [] => .empty
  | [n] => n
  | n :: rest => .seq n (ofList rest)

end Pattern

/-- A pattern with its groups. -/
structure Pattern where
  /-- The text it was read from. -/
  source : String
  /-- What it describes. -/
  root : Pattern.Node
  /-- How many groups it has. -/
  groups : Nat
  /-- The numbers of its named groups. -/
  names : List (String × Nat)
  /-- Whether capital and small letters are the same. -/
  caseless : Bool
  deriving DecidableEq, Repr, Inhabited

namespace Pattern

/-- The characters that have a meaning in patterns. -/
def specials : List Char := "()[]\x7b\x7d?*+-|^$\\.&~# \t\n\r\x0b\x0c".toList

/-- The pattern of a text that stands for itself. -/
def literalSource (s : String) : String :=
  String.ofList (s.toList.flatMap fun c => if specials.contains c then ['\\', c] else [c])

end Pattern

end Stencil
