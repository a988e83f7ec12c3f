import Stencil.Template.Basic

/-!
# Errors

The errors that a user of the library can cause and mend, by what they are about: building and
binding templates, emitting content, parsing sources, resolving paths, index maps, configuration and
the command line.  `Failure` joins them, and faults, for what can fail in several ways.

An emission error carries the number of bytes that reached the sink before it.

## Main definitions

* `TemplateError`, `EmitError`, `ParseError`, `TypeMismatch`, `IndexMapError`, `ConfigError`,
  `UsageError` — the errors by subject.
* `Failure` — any of them, or a fault.
* `Failure.message` — the cause in words.
-/

namespace Stencil

/-! ### Templates -/

/-- What can go wrong with the names of a template. -/
inductive TemplateError where
  /-- The template has no placeholder of that name. -/
  | unknownPlaceholder (name template : String)
  /-- A placeholder was to get a name that another has. -/
  | nameExists (current new : String)
  /-- Content was bound to slots without a name. -/
  | anonymousBind (count : Nat) (template : String)
  deriving DecidableEq, Repr

/-- The cause in words. -/
def TemplateError.message : TemplateError → String
  | unknownPlaceholder name template =>
    let place := if template.isEmpty then "" else s!" in template '{template}'"
    s!"template has no placeholder '{name}'{place}"
  | nameExists current new => s!"cannot rename '{current}', new name '{new}' already exists"
  | anonymousBind count template => s!"{count} anonymous bind(s) in template '{template}'"

/-! ### Emission -/

/-- What stops an emission. -/
inductive EmitCause where
  /-- A placeholder has no content. -/
  | unbound (name template : String)
  /-- The sink refused data. -/
  | refused (cause : Fault)
  /-- Content could not render itself. -/
  | content (message : String)
  /-- Values did not fill a format. -/
  | format (values : List Value) (format : Points) (cause : FormatError)
  deriving Repr

/-- An error of an emission. -/
structure EmitError where
  /-- What stopped it. -/
  cause : EmitCause
  /-- How many bytes reached the sink. -/
  count : Int
  deriving Repr

/-- The cause in words; a sink's refusal is told with the count. -/
def EmitError.message (e : EmitError) : String :=
  match e.cause with
  | .unbound name template => s!"unbound placeholder '{name}' in template '{template}'"
  | .refused cause => s!"sink write failed after {Value.intText e.count} bytes: {cause.message}"
  | .content message => message
  | .format values format cause =>
    s!"cannot format {Value.tupleText values} with '{format.shown}': {cause.message}"

/-! ### Parsing -/

/-- What can be wrong with a source.  Lines count from one. -/
inductive ParseError (ω : Type) where
  /-- An inline placeholder is not closed on its line. -/
  | unterminatedPlaceholder (rest : String) (line : Nat)
  /-- A sub-template ends that is not the innermost open one; its name may have no text. -/
  | unexpectedEnd (name : Option String) (expected : Option String) (line : Nat)
  /-- Sub-templates are open at the end. -/
  | unterminatedNesting (path : List String)
  /-- The name of a sub-template contains the path separator. -/
  | invalidName (name separator : String) (line : Nat)
  /-- A template is continued under another name. -/
  | nameMismatch (stored expected : String) (line : Nat)
  /-- Templates were parsed whose keys are taken. -/
  | duplicates (templates : List (String × Template ω))
  deriving Repr

/-- The message with the line it is about. -/
def atLine (message : String) (line : Nat) : String :=
  if line = 0 then message else s!"{message} at line {line}"

/-- The line an error is about; zero for the end of the source. -/
def ParseError.line {ω : Type} : ParseError ω → Nat
  | unterminatedPlaceholder _ line | unexpectedEnd _ _ line | invalidName _ _ line
  | nameMismatch _ _ line => line
  | unterminatedNesting _ | duplicates _ => 0

/-- The keys of templates, sorted. -/
def sortedKeys {α : Type} (templates : List (String × α)) : List String :=
  (templates.map (·.1)).mergeSort fun a b => !decide (b < a)

/-- A name that may have no text, as it is shown. -/
def shownName (name : Option String) : String := name.getD "None"

/-- The cause in words. -/
def ParseError.message {ω : Type} (e : ParseError ω) : String :=
  let text := match e with
    | unterminatedPlaceholder rest _ => s!"unexpected end of line in placeholder '{rest}'"
    | unexpectedEnd name expected _ =>
      let what := s!"unexpected sub-template end '{shownName name}'"
      match expected with
      | none => s!"{what}, no sub-template is open"
      | some expected => s!"{what}, expected '{expected}'"
    | unterminatedNesting path =>
      let whole := "/".intercalate path
      s!"end of input in nested template '{whole}'"
    | invalidName name separator _ =>
      s!"sub-template name '{name}' contains path separator '{separator}'"
    | nameMismatch stored expected _ => s!"template name mismatch '{stored}' != '{expected}'"
    | duplicates templates =>
      s!"duplicate templates: {Value.commaSeparated (sortedKeys templates)}"
  atLine text e.line

/-! ### Paths -/

/-- What a segment of a path needs. -/
inductive Expectation where
  /-- Items by position. -/
  | sequence
  /-- Parts by name. -/
  | named
  deriving DecidableEq, Repr

/-- The need in words. -/
def Expectation.message : Expectation → String
  | sequence => "sequence"
  | named => "map or record"

/-- A segment of a path does not fit the value it reached. -/
structure TypeMismatch where
  /-- The position of the segment, from zero. -/
  segment : Nat
  /-- The whole path. -/
  path : String
  /-- What the segment needs. -/
  expected : Expectation
  /-- What it reached. -/
  got : String
  deriving DecidableEq, Repr

/-- The cause in words. -/
def TypeMismatch.message (e : TypeMismatch) : String :=
  s!"segment {e.segment} in path '{e.path}' requires {e.expected.message}, got {e.got}"

/-! ### Index maps -/

/-- What can be wrong with an index map. -/
inductive IndexMapError where
  /-- A tag names no placeholder. -/
  | tagWithoutName (tag : String)
  /-- A tag has an option that is not known. -/
  | unknownOption (option tag : String)
  /-- The template lacks a placeholder that a field needs. -/
  | missingPlaceholder (field template placeholder : String)
  /-- No field refers to these placeholders. -/
  | unmapped (template : String) (placeholders : List String)
  deriving DecidableEq, Repr

/-- The cause in words. -/
def IndexMapError.message : IndexMapError → String
  | tagWithoutName tag => s!"index map tag '{tag}' has no placeholder name"
  | unknownOption option tag => s!"illegal index map tag option '{option}' in '{tag}'"
  | missingPlaceholder field template placeholder =>
    s!"index map field '{field}': template '{template}' has no placeholder '{placeholder}'"
  | unmapped template placeholders =>
    s!"unmapped placeholders in template '{template}': {Value.commaSeparated placeholders}"

/-! ### Configuration -/

/-- What can be wrong with the configuration of a markup. -/
inductive ConfigError where
  /-- It is no mapping. -/
  | notAMapping
  /-- It has keys that are not known. -/
  | unknownKeys (keys : List String)
  /-- A section is no mapping. -/
  | sectionNotAMapping (key : String)
  /-- It is of a version that is not supported. -/
  | unsupportedVersion (version : Value)
  /-- The markup it describes cannot be. -/
  | invalidMarkup (cause : Fault)
  /-- A pattern is given for something that has none. -/
  | unknownPattern (key : Value)
  /-- A pattern is no text. -/
  | patternNotText (key : String)
  /-- A pattern cannot be read. -/
  | patternUnreadable (key : String) (cause : Fault)
  /-- A group is given for something that has none. -/
  | unknownGroup (key : Value)
  /-- A group is neither a name nor a number. -/
  | invalidGroup (key : String)
  /-- There is no such file. -/
  | fileNotFound (path : String)
  /-- The file cannot be read as data. -/
  | notYaml (path cause : String)
  /-- The content of the file is wrong. -/
  | inFile (path : String) (cause : ConfigError)
  deriving Repr

/-- The sections of a markup's configuration that may replace patterns. -/
def patternKeys : List String := ["block", "start", "end"]

/-- The names of the groups that a markup looks at. -/
def groupKeys : List String :=
  ["block_name", "block_lbrk", "block_tbrk", "start_name", "start_lbrk", "end_name", "end_tbrk"]

/-- The cause in words. -/
def ConfigError.message : ConfigError → String
  | notAMapping => "syntax configuration must be a mapping"
  | unknownKeys keys => s!"unknown syntax configuration keys: {Value.commaSeparated keys}"
  | sectionNotAMapping key => s!"'{key}' must be a mapping"
  | unsupportedVersion version => s!"unsupported schema_version {version.literal}, expected 1"
  | invalidMarkup cause => s!"invalid syntax configuration: {cause.message}"
  | unknownPattern key =>
    s!"patterns.{key.display.shown}: expected one of {Value.commaSeparated patternKeys}"
  | patternNotText key => s!"patterns.{key}: pattern must be a string"
  | patternUnreadable key cause =>
    s!"patterns.{key}: invalid regular expression: {cause.message}"
  | unknownGroup key =>
    s!"groups.{key.display.shown}: expected one of {Value.commaSeparated groupKeys}"
  | invalidGroup key => s!"groups.{key}: must be a group name, number or null"
  | fileNotFound path => s!"syntax file not found: {path}"
  | notYaml path cause => s!"{path}: {cause}"
  | inFile path cause => s!"{path}: {cause.message}"

/-! ### The command line -/

/-- What can be wrong with a call of the command line. -/
inductive UsageError where
  /-- There is no such template file. -/
  | templateFileNotFound (path : String)
  /-- There is no such data file. -/
  | dataFileNotFound (path : String)
  /-- A data file cannot be read as data. -/
  | dataUnreadable (path cause : String)
  /-- No template has that key. -/
  | noTemplate (key : String)
  /-- Placeholders have no value in the data. -/
  | missingValues (count : Nat) (key : String)
  deriving DecidableEq, Repr

/-- The cause in words. -/
def UsageError.message : UsageError → String
  | templateFileNotFound path => s!"template file not found: {path}"
  | dataFileNotFound path => s!"data file not found: {path}"
  | dataUnreadable path cause => s!"{path}: {cause}"
  | noTemplate key => s!"no template with key '{key}'"
  | missingValues count key =>
    s!"{count} placeholder(s) in template '{key}' have no value in the data"

/-! ### All of them -/

/-- Any error, or a fault. -/
inductive Failure (ω : Type) where
  /-- An error about a template. -/
  | template (e : TemplateError)
  /-- An error of an emission. -/
  | emit (e : EmitError)
  /-- An error in a source. -/
  | parse (e : ParseError ω)
  /-- A path that does not fit the data. -/
  | path (e : TypeMismatch)
  /-- An error of an index map. -/
  | indexMap (e : IndexMapError)
  /-- An error of a configuration. -/
  | config (e : ConfigError)
  /-- An error of the command line. -/
  | usage (e : UsageError)
  /-- A fault. -/
  | fault (f : Fault)
  deriving Repr

/-- The cause in words. -/
def Failure.message {ω : Type} : Failure ω → String
  | template e => e.message
  | emit e => e.message
  | parse e => e.message
  | path e => e.message
  | indexMap e => e.message
  | config e => e.message
  | usage e => e.message
  | fault f => f.message

/-- Whether the failure is an error that the user can mend, and no fault. -/
def Failure.isUserError {ω : Type} : Failure ω → Bool
  | fault _ => false
  | _ => true

end Stencil
