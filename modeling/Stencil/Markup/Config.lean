import Stencil.Failure
import Stencil.Markup.Basic

/-!
# Markup from a configuration

A configuration is a map of data values.  It describes a markup by comments section by section; what
it leaves out is as usual.  It may also replace the patterns of that markup and say which of their
groups are looked at.

## Main definitions

* `Config.unknownKeys` — the error of a configuration with unknown keys.
* `Settings`, `StyleValues` — a configuration with the usual values filled in.
* `Markup.ofConfig` — the markup that a configuration describes.
-/

namespace Stencil

variable [DigitLimit] {ω : Type}

namespace Config

/-- The keys of a configuration. -/
def sections : List String :=
  ["schema_version", "inline", "comment", "patterns", "groups", "line_end", "path_sep",
    "trim_whitespace"]

/-- The version that configurations must be of. -/
def version : Int := 1

/-- Whether a value is a number. -/
def isNumber : Value → Bool
  | .bool _ | .int _ | .float _ => true
  | _ => false

/-- Whether one number is below another; no number is below the undefined one or above it. -/
def numberBelow (a b : Value) : Bool :=
  let double (v : Value) : Double := match v with
    | .float x => x
    | v => .ofInt (v.toInt?.getD 0)
  match a.toInt?, b.toInt? with
  | some m, some n => decide (m < n)
  | _, _ =>
    match double a, double b with
    | .infinity p, .infinity q => p && !q
    | .infinity p, .finite _ _ _ => p
    | .finite _ _ _, .infinity q => !q
    | .finite p m e, .finite q n f =>
      let low := min e f
      let whole (negative : Bool) (k : Nat) (g : Int) : Int :=
        let size := (k * Nat.pow 2 (g - low).toNat : Nat)
        if negative then -size else size
      decide (whole p m e < whole q n f)
    | _, _ => false

/-- The two first neighbours among keys that have no order, as their types. -/
def unordered? : List Value → Option (String × String)
  | a :: b :: rest =>
    if (isNumber a && isNumber b) || (a.typeName = "str" && b.typeName = "str") ||
        (a.typeName = "bytes" && b.typeName = "bytes") then unordered? (b :: rest)
    else some (b.typeName, a.typeName)
  | _ => none

/-- The least of numbers, and otherwise the first value. -/
def leastOf (v : Value) (rest : List Value) : Value :=
  rest.foldl (fun least w => if isNumber w && numberBelow w least then w else least) v

/-- The texts among keys, if all of them are. -/
def texts? : List Value → Option (List String)
  | [] => some []
  | .str s :: rest => (texts? rest).map (s.shown :: ·)
  | _ :: _ => none

/-- The error of a configuration with unknown keys, if it has some.  Keys that are no texts cannot
be listed, and keys of different kinds not even be sorted. -/
def unknownKeys (keys : List Value) : Except (Failure ω) Unit :=
  let unknown := keys.filter fun key => !sections.any fun s => key.equals (.str s)
  match unknown with
  | [] => .ok ()
  | first :: rest =>
    match texts? unknown with
    | some names =>
      .error (.config (.unknownKeys (names.mergeSort fun a b => !decide (b < a))))
    | none =>
      match unordered? unknown with
      | some (left, right) => .error (.fault (.keysUnordered left right))
      | none => .error (.fault (.keyNotText 0 (leastOf first rest).typeName))

/-- The entries of a section that is a map; a section without a value has none. -/
def entries (raw : List (Value × Value)) (key : String) :
    Except (Failure ω) (List (Value × Value)) :=
  match (Value.lookupName? raw key).getD .none with
  | .none => .ok []
  | .map es => .ok es
  | _ => .error (.config (.sectionNotAMapping key))

/-- The value of a key, if it has one and that is not nothing. -/
def valueOr (usual : Value) (raw : List (Value × Value)) (key : String) : Value :=
  match (Value.lookupName? raw key).getD .none with
  | .none => usual
  | v => v

/-- The value of a key in a section. -/
def inSection (usual : String) (es : List (Value × Value)) (key : String) : Value :=
  (Value.lookupName? es key).getD (.str usual)

/-- An error of a configuration that shows a value in its message, which fails for an integer with
too many digits. -/
def showing (digits : Nat) (e : ConfigError) : Failure ω :=
  match DigitLimit.exceeded? digits with
  | some most => .fault (.tooManyDigits most)
  | none => .config e

end Config

/-- The values that a configuration gives for a markup by comments. -/
structure StyleValues where
  /-- What opens an inline placeholder. -/
  inlineStart : Value
  /-- What closes it. -/
  inlineEnd : Value
  /-- What opens a comment. -/
  openComment : Value
  /-- What closes a comment. -/
  closeComment : Value
  /-- The pattern of names. -/
  namePattern : Value
  /-- What a line ends in. -/
  lineEnd : Value
  /-- What separates the names of a nesting path. -/
  pathSep : Value
  /-- Whether plain lines are trimmed. -/
  trims : Bool

/-- The style by the texts of the values. -/
def StyleValues.style (v : StyleValues) : CommentStyle where
  inlineStart := v.inlineStart.display.shown
  inlineEnd := v.inlineEnd.display.shown
  openComment := v.openComment.display.shown
  closeComment := v.closeComment.display.shown
  namePattern := v.namePattern.display.shown
  lineEnd := v.lineEnd.display.shown
  pathSep := v.pathSep.display.shown
  prepare := if v.trims then some .trim else none

/-- The most digits of an integer in the texts of the values. -/
def StyleValues.digits (v : StyleValues) : Nat :=
  [v.inlineStart, v.inlineEnd, v.openComment, v.closeComment, v.namePattern, v.lineEnd,
    v.pathSep].foldr (fun w most => max w.shownDigits most) 0

/-- A configuration with the usual values filled in. -/
structure Settings where
  /-- The version it is of. -/
  version : Value
  /-- The style of the markup by comments. -/
  style : StyleValues
  /-- The patterns that are replaced. -/
  patterns : List (Value × Value)
  /-- The groups that are looked at. -/
  groups : List (Value × Value)

namespace Settings

/-- The settings in the entries of a configuration. -/
def ofEntries (raw : List (Value × Value)) : Except (Failure ω) Settings := do
  let usual := CommentStyle.standard
  let inline ← Config.entries raw "inline"
  let comment ← Config.entries raw "comment"
  let patterns ← Config.entries raw "patterns"
  let groups ← Config.entries raw "groups"
  return {
    version := Config.valueOr (.int Config.version) raw "schema_version"
    style := {
      inlineStart := Config.inSection usual.inlineStart inline "start"
      inlineEnd := Config.inSection usual.inlineEnd inline "end"
      openComment := Config.inSection usual.openComment comment "open"
      closeComment := Config.inSection usual.closeComment comment "close"
      namePattern := Config.inSection usual.namePattern comment "name_pattern"
      lineEnd := Config.valueOr (.str usual.lineEnd) raw "line_end"
      pathSep := Config.valueOr (.str usual.pathSep) raw "path_sep"
      trims := (Config.valueOr (.bool false) raw "trim_whitespace").isTrue }
    patterns, groups }

end Settings

namespace Markup

/-- The markup with one of its patterns replaced. -/
def withPattern (m : Markup) (key : String) (p : Pattern) : Markup :=
  match key with
  | "block" => { m with block := p }
  | "start" => { m with start := p }
  | _ => { m with finish := p }

/-- The markup with one of its groups replaced. -/
def withGroup (m : Markup) (key : String) (g : Option Pattern.GroupRef) : Markup :=
  match key with
  | "block_name" => { m with blockName := g }
  | "block_lbrk" => { m with blockLead := g }
  | "block_tbrk" => { m with blockTrail := g }
  | "start_name" => { m with startName := g }
  | "start_lbrk" => { m with startLead := g }
  | "end_name" => { m with finishName := g }
  | _ => { m with finishTrail := g }

/-- The key among some texts that a value is. -/
def keyAmong (keys : List String) : Value → Option String
  | .str s => keys.find? fun key => s == Points.ofString key
  | _ => none

/-- The markup with a pattern of a configuration. -/
def configurePattern (compile : Pattern.Compiler) (m : Markup) (entry : Value × Value) :
    Except (Failure ω) Markup :=
  match keyAmong patternKeys entry.1, entry.2 with
  | none, _ => .error (Config.showing entry.1.shownDigits (.unknownPattern entry.1))
  | some key, .str source =>
    match compile source.shown with
    | .ok p => .ok (m.withPattern key p)
    | .error f =>
      if f.kind = .pattern then .error (.config (.patternUnreadable key f)) else .error (.fault f)
  | some key, _ => .error (.config (.patternNotText key))

/-- The markup with a group of a configuration. -/
def configureGroup (m : Markup) (entry : Value × Value) : Except (Failure ω) Markup :=
  match keyAmong groupKeys entry.1, entry.2 with
  | none, _ => .error (Config.showing entry.1.shownDigits (.unknownGroup entry.1))
  | some key, .none => .ok (m.withGroup key none)
  | some key, .int n => .ok (m.withGroup key (some (.number n)))
  | some key, .bool b => .ok (m.withGroup key (some (.flag b)))
  | some key, .str s => .ok (m.withGroup key (some (.name s.shown)))
  | some key, _ => .error (.config (.invalidGroup key))

/-- Whether a fault of a markup by comments is told as an error of the configuration: a value that
is not allowed, or a pattern that cannot be read. -/
def isConfigFault (f : Fault) : Bool := f.kind.isOfValue || f.kind == .pattern

/-- The markup by comments in the style that values give. -/
def ofStyle (compile : Pattern.Compiler) (v : StyleValues) : Except (Failure ω) Markup :=
  let made : Except Fault Markup :=
    match DigitLimit.exceeded? v.digits with
    | some most => .error (.tooManyDigits most)
    | none => Markup.comment compile v.style
  match made with
  | .ok m => .ok m
  | .error f => .error (if isConfigFault f then .config (.invalidMarkup f) else .fault f)

/-- The check that settings are of the version that is supported. -/
def checkVersion (s : Settings) : Except (Failure ω) Unit :=
  if s.version.equals (.int Config.version) then .ok ()
  else .error (Config.showing s.version.digits (.unsupportedVersion s.version))

/-- The markup that settings describe. -/
def ofSettings (compile : Pattern.Compiler) (s : Settings) : Except (Failure ω) Markup := do
  checkVersion s
  let m ← ofStyle compile s.style
  let m ← s.patterns.foldlM (configurePattern compile) m
  s.groups.foldlM configureGroup m

/-- The entries that a configuration has; a value that does not count as true is an empty one. -/
def entries? (raw : Value) : Option (List (Value × Value)) :=
  match if raw.isTrue then raw else .map [] with
  | .map es => some es
  | _ => none

/-- The markup that a configuration describes. -/
def ofConfig (compile : Pattern.Compiler) (raw : Value) : Except (Failure ω) Markup :=
  match entries? raw with
  | some es => do
    Config.unknownKeys (es.map (·.1))
    let settings ← Settings.ofEntries es
    ofSettings compile settings
  | none => .error (.config .notAMapping)

end Markup

end Stencil
