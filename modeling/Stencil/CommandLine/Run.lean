import Stencil.Bound.Report
import Stencil.CommandLine.Arguments
import Stencil.Markup.File
import Stencil.Source.Parse
import Stencil.Text.Blank
import Stencil.Text.Json

/-!
# Calls of the command line

A call parses the file of a template and lists the templates in it, or fills one of them from data
and writes it out.  An error that the user can mend is told on the error output; any other failure
ends the call without an answer.

Data and the configurations of markups are read by a reader of data, which is not part of this
library.

## Main definitions

* `Files` — what files there are.
* `Outcome` — what a call writes.
* `Invocation.run` — what comes of a call.
-/

namespace Stencil.CommandLine

/-- The failures of calls, whose templates refer to nothing that is shared. -/
abbrev CallFailure := Failure (Wrap Empty)

/-- The content of the file with a name, if there is one. -/
abbrev Files := String → Option Bytes

/-- The files with given names and contents. -/
def Files.ofList (entries : List (String × Bytes)) : Files := fun name =>
  (entries.find? fun e => FileName.normal e.1 = FileName.normal name).map (·.2)

/-- What a call writes. -/
structure Outcome where
  /-- The exit code. -/
  code : Nat
  /-- What is written to the output. -/
  output : Bytes
  /-- What is written to the error output. -/
  errors : String
  deriving DecidableEq, Repr

/-- The exit code of a call that failed. -/
def failureCode : Nat := 2

namespace Invocation

variable [DigitLimit]

/-- The markup that a call asks for. -/
def markup (reader : DataReader) (files : Files) (common : Common) : Except CallFailure Markup :=
  if common.markup.isEmpty then (Markup.comment Pattern.ofText .standard).mapError .fault
  else Markup.ofFile reader common.markup (files common.markup)

/-- The templates of the file that a call names. -/
def catalog (reader : DataReader) (files : Files) (common : Common) :
    Except CallFailure (Catalog (Wrap Empty)) :=
  match files common.file with
  | none => .error (.usage (.templateFileNotFound (FileName.normal common.file)))
  | some bytes => do
    let m ← markup reader files common
    match Catalog.parse [] m common.rootName (.ofFile bytes) with
    | (c, none) => return c
    | (_, some e) => throw e

/-- The data that a call names; an empty map if it names none. -/
def data (reader : DataReader) (files : Files) (name : String) : Except CallFailure Value :=
  if name.isEmpty then .ok (.map [])
  else
    let path := FileName.normal name
    match files name with
    | none => .error (.usage (.dataFileNotFound path))
    | some bytes =>
      match fileText bytes with
      | .error f => .error (.fault f)
      | .ok text =>
        match reader text with
        | .error cause => .error (.usage (.dataUnreadable path cause))
        | .ok v => .ok v

/-- A template in short, in JSON. -/
def entryText (e : CatalogEntry) : String :=
  Text.jsonObject [("key", Text.jsonText e.key), ("name", Text.jsonText e.name),
    ("placeholders", Text.jsonList (e.placeholders.map Text.jsonText))]

/-- The templates of a catalogue in short, in JSON. -/
def listing (c : Catalog (Wrap Empty)) : String :=
  Text.jsonObject [("templates", Text.jsonList (c.entries.map entryText))]

/-- What a call writes to the output. -/
def output (reader : DataReader) (files : Files) (added : List Adapter) :
    Invocation → Except CallFailure Bytes
  | .list common => do
    let c ← catalog reader files common
    return Utf8.encode (listing c).toList
  | .render common key dataName allowMissing escapeHtml => do
    let c ← catalog reader files common
    let v ← data reader files dataName
    (c.report key added ⟨allowMissing, escapeHtml⟩ v []).1

/-- The text without the white space at its end, as a line. -/
def errorLine (message : String) : String :=
  String.ofList ((message.toList.reverse.dropWhile Text.isBlank).reverse ++ ['\n'])

/-- What comes of a call. -/
def run (reader : DataReader) (files : Files) (added : List Adapter) (i : Invocation) :
    Except Fault Outcome :=
  match i.output reader files added with
  | .ok bytes => .ok ⟨0, bytes, ""⟩
  | .error (.fault f) => .error f
  | .error e => .ok ⟨failureCode, [], errorLine e.message⟩

end Invocation

end Stencil.CommandLine
