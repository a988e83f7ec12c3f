import Stencil.Content.Basic
import Stencil.Pattern.Reader
import Stencil.Text.Cut

/-!
# Markup

A markup says how templates are written: the markers around an inline placeholder, the patterns of
the lines that are a placeholder, start a sub-template or end one, which groups of these patterns
hold names and break flags, how a line ends, and what separates the names of nested templates.

A break flag is a group; when it holds any text, the line break before or after is dropped.

## Main definitions

* `Markup` — the markups.
* `Markup.Line`, `Markup.classify` — what a line is.
* `Markup.comment` — the markup by comments.
-/

namespace Stencil

/-- A function that prepares a plain line, with the name it is shown by. -/
abbrev Preparation := Named String String

/-- The preparation that drops spaces and tabs at both ends. -/
def Preparation.trim : Preparation :=
  ⟨"trim", fun s => String.ofList (Text.trim Text.isSpaceOrTab s.toList)⟩

/-- How templates are written. -/
structure Markup where
  /-- What opens an inline placeholder. -/
  inlineStart : String
  /-- What closes it. -/
  inlineEnd : String
  /-- The lines that are a placeholder. -/
  block : Pattern
  /-- The lines that start a sub-template. -/
  start : Pattern
  /-- The lines that end one. -/
  finish : Pattern
  /-- The group of a block line that holds the name. -/
  blockName : Option Pattern.GroupRef
  /-- The group that drops the break before a block line. -/
  blockLead : Option Pattern.GroupRef
  /-- The group that drops the break after it. -/
  blockTrail : Option Pattern.GroupRef
  /-- The group of a start line that holds the name. -/
  startName : Option Pattern.GroupRef
  /-- The group that drops the break before a start line. -/
  startLead : Option Pattern.GroupRef
  /-- The group of an end line that holds the name. -/
  finishName : Option Pattern.GroupRef
  /-- The group that drops the break after an end line. -/
  finishTrail : Option Pattern.GroupRef
  /-- What a line ends in. -/
  lineEnd : String
  /-- What separates the names of a nesting path. -/
  pathSep : String
  /-- What is done to a plain line first. -/
  prepare : Option Preparation

namespace Markup

/-- The fault of a markup that cannot be used, if it is one: markers and the separator must not be
empty. -/
def fault? (m : Markup) : Option Fault :=
  if m.inlineStart.isEmpty || m.inlineEnd.isEmpty then some .emptyMarker
  else if m.pathSep.isEmpty then some .emptyPathSeparator
  else none

/-- The markup, if it can be used. -/
def checked (m : Markup) : Except Fault Markup :=
  match m.fault? with
  | none => .ok m
  | some f => .error f

/-- The plain line as it is prepared. -/
def prepared (m : Markup) (line : String) : String :=
  match m.prepare with
  | none => line
  | some p => p.run line

/-! ### Lines -/

/-- What a group of a match holds, or the fault of one that is not there. -/
def groupText (m : Pattern.Match) (group : Option Pattern.GroupRef) :
    Except Fault (Option String) :=
  match group.bind m.group? with
  | some text => .ok text
  | none => .error .noSuchGroup

/-- Whether the break that a group is for is kept; it is if there is no such group, and if the group
holds no text. -/
def keepsBreak (m : Pattern.Match) (group : Option Pattern.GroupRef) : Except Fault Bool :=
  match group with
  | none => .ok true
  | some g => (groupText m (some g)).map fun text => text.all (·.isEmpty)

/-- What a line is.  A group that is not there shows only when it is looked at. -/
inductive Line where
  /-- The start of a sub-template. -/
  | start (lead : Except Fault Bool) (name : Except Fault (Option String))
  /-- The end of a sub-template. -/
  | finish (name : Except Fault (Option String)) (trail : Except Fault Bool)
  /-- A placeholder. -/
  | block (lead : Except Fault Bool) (name : Except Fault (Option String))
      (trail : Except Fault Bool)
  /-- Text, which may hold placeholders. -/
  | plain (text : String)

/-- What a line is: a start, an end or a placeholder in that order, and otherwise text. -/
def classify (m : Markup) (line : String) : Line :=
  match m.start.search line, m.finish.search line, m.block.search line with
  | some s, _, _ => .start (keepsBreak s m.startLead) (groupText s m.startName)
  | none, some s, _ => .finish (groupText s m.finishName) (keepsBreak s m.finishTrail)
  | none, none, some s =>
    .block (keepsBreak s m.blockLead) (groupText s m.blockName) (keepsBreak s m.blockTrail)
  | none, none, none => .plain (m.prepared line)

end Markup

/-! ### Markup by comments -/

/-- What can be chosen in a markup by comments. -/
structure CommentStyle where
  /-- What opens an inline placeholder. -/
  inlineStart : String
  /-- What closes it. -/
  inlineEnd : String
  /-- What opens a comment. -/
  openComment : String
  /-- What closes a comment. -/
  closeComment : String
  /-- The pattern of names. -/
  namePattern : String
  /-- What a line ends in. -/
  lineEnd : String
  /-- What separates the names of a nesting path. -/
  pathSep : String
  /-- What is done to a plain line first. -/
  prepare : Option Preparation

/-- The usual markup by comments: that of HTML, with backticks around inline placeholders. -/
def CommentStyle.standard : CommentStyle :=
  ⟨"`", "`", "<!--", "-->", "[a-zA-Z0-9_-]+", "\n", "/", none⟩

namespace CommentStyle

/-- The pattern of a line that is a comment with something in it. -/
def lineSource (opening inner closing : String) : String :=
  "^[ \\t]*" ++ opening ++ inner ++ closing ++ "[ \\t]*$"

/-- The pattern of a break flag with a name. -/
def flagSource (name : String) : String := "(?P<" ++ name ++ ">\\\\?)"

/-- The pattern of a name. -/
def nameSource (c : CommentStyle) : String := "(?P<name>" ++ c.namePattern ++ ")"

/-- The pattern of the lines that are a placeholder. -/
def blockSource (c : CommentStyle) : String :=
  lineSource (Pattern.literalSource c.openComment)
    (flagSource "lbrk" ++ " >>> " ++ c.nameSource ++ " <<< " ++ flagSource "tbrk")
    (Pattern.literalSource c.closeComment)

/-- The pattern of the lines that start a sub-template. -/
def startSource (c : CommentStyle) : String :=
  lineSource (Pattern.literalSource c.openComment)
    (flagSource "lbrk" ++ " >>> " ++ c.nameSource ++ " >>> ")
    (Pattern.literalSource c.closeComment)

/-- The pattern of the lines that end a sub-template. -/
def finishSource (c : CommentStyle) : String :=
  lineSource (Pattern.literalSource c.openComment)
    (" <<< " ++ c.nameSource ++ " <<< " ++ flagSource "tbrk")
    (Pattern.literalSource c.closeComment)

end CommentStyle

/-- The markup by comments in a style, whose patterns are made by `compile`. -/
def Markup.comment (compile : Pattern.Compiler) (c : CommentStyle) : Except Fault Markup := do
  let block ← compile c.blockSource
  let start ← compile c.startSource
  let finish ← compile c.finishSource
  Markup.checked {
    inlineStart := c.inlineStart
    inlineEnd := c.inlineEnd
    block, start, finish
    blockName := some (.name "name")
    blockLead := some (.name "lbrk")
    blockTrail := some (.name "tbrk")
    startName := some (.name "name")
    startLead := some (.name "lbrk")
    finishName := some (.name "name")
    finishTrail := some (.name "tbrk")
    lineEnd := c.lineEnd
    pathSep := c.pathSep
    prepare := c.prepare }

end Stencil
