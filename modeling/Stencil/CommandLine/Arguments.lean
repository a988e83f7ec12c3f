import Stencil.Text.Digit

/-!
# Arguments of the command line

A call is a command with its arguments: a file, and options in any order before or after it.  An
option may be shortened as long as it is clear which one is meant, and its value may follow behind
an equality sign.  Behind two dashes nothing is an option.  What looks like a negative number, or
holds a blank, is no option either unless it is one by name.

A call that asks for help or the version ends there, and so does a call that is wrong.

## Main definitions

* `Invocation` — the calls.
* `CallEnd` — how a call may end before it starts.
* `Invocation.ofArguments` — the call that arguments make.
-/

namespace Stencil.CommandLine

/-- What all commands are told. -/
structure Common where
  /-- The file of the template. -/
  file : String
  /-- The file that describes the markup, if there is one. -/
  markup : String
  /-- The name of the outermost template. -/
  rootName : String
  deriving DecidableEq, Repr, Inhabited

/-- A call. -/
inductive Invocation where
  /-- List the templates of a file. -/
  | list (common : Common)
  /-- Fill a template from data. -/
  | render (common : Common) (key data : String) (allowMissing escapeHtml : Bool)
  deriving DecidableEq, Repr

/-- How a call may end before it starts. -/
inductive CallEnd where
  /-- Help or the version was asked for. -/
  | answered
  /-- The arguments are wrong. -/
  | misused
  deriving DecidableEq, Repr

/-- What an option does. -/
inductive OptionKind where
  /-- It takes a value. -/
  | valued
  /-- It is on or not. -/
  | flag
  /-- It ends the call. -/
  | final
  deriving DecidableEq, Repr

/-- The options of a command by name. -/
abbrev Options := List (String × OptionKind)

/-- The options before the command. -/
def outerOptions : Options :=
  [("-h", .final), ("--help", .final), ("-v", .final), ("--version", .final)]

/-- The options of the command that lists. -/
def listOptions : Options :=
  [("-h", .final), ("--help", .final), ("--syntax", .valued), ("--root-name", .valued)]

/-- The options of the command that renders. -/
def renderOptions : Options :=
  listOptions ++ [("--template", .valued), ("--data", .valued), ("--allow-missing", .flag),
    ("--escape-html", .flag)]

/-! ### What an argument is -/

/-- What an argument is. -/
inductive Argument where
  /-- Two dashes. -/
  | dashes
  /-- No option. -/
  | plain (text : String)
  /-- An option with the value behind its equality sign. -/
  | option (name : String) (kind : OptionKind) (value : Option (List Char))
  /-- An option of one letter with others behind it. -/
  | cluster (more : List Char)
  /-- An option that is not known. -/
  | unknown
  deriving DecidableEq, Repr

/-- Whether a text looks like a negative number. -/
def isNegativeNumber (s : List Char) : Bool :=
  match s with
  | '-' :: t =>
    -- one line feed at the end does not count
    let t := if t.getLast? = some '\n' then t.dropLast else t
    let rest := t.dropWhile Text.isDigit
    (!t.isEmpty && rest.isEmpty) ||
      (match rest with
        | '.' :: part => !part.isEmpty && part.all Text.isDigit
        | _ => false)
  | _ => false

/-- A text cut at its first equality sign. -/
def atEquals (s : List Char) : List Char × Option (List Char) :=
  match s.dropWhile (· != '=') with
  | _ :: value => (s.takeWhile (· != '='), some value)
  | [] => (s, none)

/-- The options that a text may be short for. -/
def candidates (options : Options) (s : List Char) : List Argument :=
  match s with
  | '-' :: '-' :: _ =>
    let (lead, value) := atEquals s
    (options.filter fun o => lead.isPrefixOf o.1.toList).map fun o => .option o.1 o.2 value
  | _ =>
    (options.filter fun o => s.take 2 = o.1.toList).map fun _ => .cluster (s.drop 2)

/-- What an argument is; nothing if it is short for several options. -/
def classify (options : Options) (text : String) : Option Argument :=
  let s := text.toList
  let (lead, value) := atEquals s
  if s.head? ≠ some '-' then some (.plain text)
  else
    match options.lookup text, options.lookup (String.ofList lead) with
    | some kind, _ => some (.option text kind none)
    | none, some kind => some (.option (String.ofList lead) kind value)
    | none, none =>
      if s.length = 1 then some (.plain text)
      else
        match candidates options s with
        | [] =>
          if isNegativeNumber s || s.contains ' ' then some (.plain text) else some .unknown
        | [a] => some a
        | _ => none

/-- What arguments are; nothing if one of them is short for several options. -/
def classifyAll (options : Options) : List String → Option (List Argument)
  | [] => some []
  | text :: rest =>
    if text = "--" then some (.dashes :: rest.map .plain)
    else do
      let a ← classify options text
      let as ← classifyAll options rest
      return a :: as

/-! ### A command's arguments -/

/-- What the arguments of a command said so far. -/
structure Told where
  /-- The file. -/
  file : Option String
  /-- The options that were given, the latest first. -/
  given : List (String × String)
  /-- Whether there was something that is not known. -/
  surplus : Bool
  deriving Repr

/-- How a call ends by options of one letter, the first of which ends it: the others are looked at
as far as they are known, and none of them may have a value. -/
def clusterEnd (options : Options) : (more : List Char) → CallEnd
  | [] => .answered
  | c :: rest =>
    if c = '-' ∨ c = '=' then .misused
    else if (options.lookup (String.ofList ['-', c])).isSome then clusterEnd options rest
    else .answered

/-- Take an option with what comes behind it. -/
def takeOption (name : String) (kind : OptionKind) (value : Option (List Char))
    (rest : List Argument) (told : Told) : Except CallEnd (Told × List Argument) :=
  match kind, value, rest with
  | .final, none, _ => .error .answered
  | .final, some _, _ => .error .misused
  | .flag, none, _ => .ok ({ told with given := (name, "") :: told.given }, rest)
  | .flag, some _, _ => .error .misused
  | .valued, some value, _ =>
    .ok ({ told with given := (name, String.ofList value) :: told.given }, rest)
  | .valued, none, .plain text :: rest =>
    .ok ({ told with given := (name, text) :: told.given }, rest)
  | .valued, none, _ => .error .misused

/-- Take a text that is no option: the file, if there is none yet. -/
def takePlain (text : String) (told : Told) : Told :=
  match told.file with
  | none => { told with file := some text }
  | some _ => { told with surplus := true }

/-- Take the arguments of a command one after the other.  Two dashes are passed only beside the
file. -/
def takeAll (options : Options) :
    (fuel : Nat) → List Argument → Told → Except CallEnd Told
  | 0, _, told => .ok told
  | _ + 1, [], told => .ok told
  -- the dashes go with the text beside them, also where that is surplus
  | fuel + 1, .plain text :: .dashes :: rest, told =>
    if told.file.isNone then takeAll options fuel rest { told with file := some text }
    else takeAll options fuel rest { told with surplus := true }
  | fuel + 1, .plain text :: rest, told => takeAll options fuel rest (takePlain text told)
  | fuel + 1, .dashes :: .plain text :: rest, told =>
    if told.file.isNone then takeAll options fuel rest { told with file := some text }
    else takeAll options fuel rest { told with surplus := true }
  | fuel + 1, .dashes :: rest, told => takeAll options fuel rest { told with surplus := true }
  | fuel + 1, .unknown :: rest, told => takeAll options fuel rest { told with surplus := true }
  | _ + 1, .cluster more :: _, _ => .error (clusterEnd options more)
  | fuel + 1, .option name kind value :: rest, told =>
    match takeOption name kind value rest told with
    | .error e => .error e
    | .ok (told, rest) => takeAll options fuel rest told

/-- The value of an option, empty if it is not given. -/
def Told.valueOf (told : Told) (name : String) : String := (told.given.lookup name).getD ""

/-- What the arguments of a command say. -/
def tell (options : Options) (args : List String) : Except CallEnd Told :=
  match classifyAll options args with
  | none => .error .misused
  | some as => takeAll options (as.length + 1) as ⟨none, [], false⟩

/-- What all commands are told. -/
def Told.common? (told : Told) : Option Common :=
  told.file.map fun file => ⟨file, told.valueOf "--syntax", told.valueOf "--root-name"⟩

/-- The call of a command; one that is told something that is not known, or was before it, is
wrong. -/
def ofCommand (surplus : Bool) (name : String) (args : List String) :
    Except CallEnd Invocation := do
  let finish (told : Told) (make : Common → Invocation) : Except CallEnd Invocation :=
    match told.common? with
    | none => .error .misused
    | some common => if surplus || told.surplus then .error .misused else .ok (make common)
  match name with
  | "list" => finish (← tell listOptions args) .list
  | "render" =>
    let told ← tell renderOptions args
    let has (name : String) : Bool := (told.given.lookup name).isSome
    finish told fun common =>
      .render common (told.valueOf "--template") (told.valueOf "--data") (has "--allow-missing")
        (has "--escape-html")
  | _ => .error .misused

/-- Look for the command among the arguments, which are classified beside their texts. -/
def findCommand (surplus : Bool) : List (Argument × String) → Except CallEnd Invocation
  | [] => .error .misused
  | (.unknown, _) :: rest => findCommand true rest
  | (.plain _, text) :: rest => ofCommand surplus text (rest.map (·.2))
  | (.dashes, _) :: _ => .error .misused
  | (.cluster more, _) :: _ => .error (clusterEnd outerOptions more)
  | (.option _ _ value, _) :: _ => .error (if value.isNone then .answered else .misused)

/-- The call that arguments make. -/
def Invocation.ofArguments (args : List String) : Except CallEnd Invocation :=
  match classifyAll outerOptions args with
  | none => .error .misused
  | some as => findCommand false (as.zip args)

end Stencil.CommandLine
