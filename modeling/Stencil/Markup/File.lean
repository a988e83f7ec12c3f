import Stencil.Source.FileName
import Stencil.Markup.Config
import Stencil.Source.File

/-!
# Markup from a file

A file that describes a markup holds a configuration, which a reader of data makes of its text.

## Main definitions

* `Markup.ofFile` — the markup that a file describes.
-/

namespace Stencil

/-- The error of a configuration with the file it is in; other failures as they are. -/
def Failure.inFile {ω : Type} (path : String) : Failure ω → Failure ω
  | .config e => .config (.inFile path e)
  | e => e

/-- The markup that a file with the given content describes; nothing if there is no such file. -/
def Markup.ofFile [DigitLimit] {ω : Type} (reader : DataReader) (name : String)
    (content : Option Bytes) : Except (Failure ω) Markup :=
  let path := FileName.normal name
  match content with
  | none => .error (.config (.fileNotFound path))
  | some bytes =>
    match fileText bytes with
    | .error f => .error (.fault f)
    | .ok text =>
      match reader text with
      | .error cause => .error (.config (.notYaml path cause))
      | .ok raw => (Markup.ofConfig Pattern.ofText raw).mapError (.inFile path)

end Stencil
