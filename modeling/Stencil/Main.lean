import Stencil.CommandLine.Run
import Stencil.Yaml.Document

/-!
# The program

Reads the files that a call names, and writes what comes of it.
-/

namespace Stencil.CommandLine

/-- What the program is for. -/
def usage : String :=
  "usage: stencil list FILE [--syntax FILE] [--root-name NAME]\n" ++
  "       stencil render FILE [--syntax FILE] [--root-name NAME] [--template KEY]\n" ++
  "                      [--data FILE] [--allow-missing] [--escape-html]\n"

/-- The names of the files that a call needs. -/
def Invocation.fileNames : Invocation → List String
  | .list common => [common.file, common.markup]
  | .render common _ dataName _ _ => [common.file, common.markup, dataName]

/-- The files that can be read, of those with the given names. -/
def readFiles (names : List String) : IO (List (String × Bytes)) := do
  let mut found := []
  for name in names do
    if !name.isEmpty then
      try
        let bytes ← IO.FS.readBinFile name
        found := (name, bytes.toList) :: found
      catch _ => pure ()
  return found

/-- Answer a call. -/
def answer (args : List String) : IO UInt32 := do
  match Invocation.ofArguments args with
  | .error .answered =>
    IO.print usage
    return 0
  | .error .misused =>
    IO.eprint usage
    return 2
  | .ok call =>
    let files ← readFiles call.fileNames
    match call.run Yaml.reader (Files.ofList files) [] with
    | .error f =>
      IO.eprintln f.message
      return 1
    | .ok outcome =>
      (← IO.getStdout).write (ByteArray.mk outcome.output.toArray)
      IO.eprint outcome.errors
      return UInt32.ofNat outcome.code

end Stencil.CommandLine

/-- The program. -/
def main (args : List String) : IO UInt32 := Stencil.CommandLine.answer args
