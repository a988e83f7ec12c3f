import Stencil.Source.Lines
import Stencil.Text.Newline

/-!
# Sources from files

The file of a template is read piece by piece, and its lines are parsed as soon as they are there.
So where a file is no text, the lines before the piece in which that shows are parsed first.  A
carriage return at the end of a piece waits for the next one.

Other files are read as a whole.

## Main definitions

* `pieceSize` — how many bytes are read at once.
* `Lines.ofFile` — the lines of a file.
* `fileText` — the text of a file.
-/

namespace Stencil

/-- How many bytes are read at once. -/
def pieceSize : Nat := 8192

/-- The pieces of a byte string, at most `fuel` of them. -/
def filePieces : (fuel : Nat) → Bytes → List Bytes
  | 0, _ => []
  | _ + 1, [] => []
  | fuel + 1, b :: bytes =>
    (b :: bytes).take pieceSize :: filePieces fuel ((b :: bytes).drop pieceSize)

/-- The text in pieces of bytes of which `kept` are left from before, up to where they are no
text. -/
def readPieces (kept : Bytes) : List Bytes → List Char × Option Undecodable
  | [] =>
    match Utf8.finish kept with
    | .ok () => ([], none)
    | .error cause => ([], some cause)
  | piece :: rest =>
    match Utf8.feed kept piece with
    | .error cause => ([], some cause)
    | .ok (s, kept) =>
      let (more, cause) := readPieces kept rest
      (s ++ more, cause)

/-- The lines of a text that end in a line feed. -/
def wholeLines (s : List Char) : List (List Char) :=
  if s.getLast? = some '\n' then splitLines s else (splitLines s).dropLast

/-- The lines of a file. -/
def Lines.ofFile (bytes : Bytes) : Lines :=
  match readPieces [] (filePieces bytes.length bytes) with
  | (s, none) => .ofText (Text.unifyBreaks s)
  | (s, some cause) =>
    -- a carriage return at the end waits for the piece that is no text
    let lines := wholeLines (Text.unifyBreaks (dropFinal '\r' s))
    ⟨lines.map fun l => String.ofList (chomp l), some (.undecodable .utf8 cause)⟩

/-- The text of a file. -/
def fileText (bytes : Bytes) : Except Fault String :=
  match Charset.utf8.decode bytes with
  | .ok s => .ok (String.ofList (Text.unifyBreaks s))
  | .error cause => .error (.undecodable .utf8 cause)

end Stencil
