import Stencil.Text.Cut

/-!
# File names

A file name is a row of parts with slashes between them.  Empty parts and single dots lead nowhere
and are left out; a name without parts is that of the directory itself.  One or two slashes at the
start are kept, and more of them count as one.

## Main definitions

* `FileName.normal` — a file name as it is shown and looked up.
-/

namespace Stencil.FileName

/-- The slashes that a name starts with, as far as they count. -/
def root (s : List Char) : List Char :=
  match s.takeWhile (· == '/') with
  | [] => []
  | ['/', '/'] => ['/', '/']
  | _ => ['/']

/-- The parts of a name that lead somewhere. -/
def parts (s : List Char) : List (List Char) :=
  (Text.pieces ['/'] s).filter fun part => part ≠ [] ∧ part ≠ ['.']

/-- A file name as it is shown and looked up. -/
def normal (name : String) : String :=
  let whole := root name.toList ++ Text.join ['/'] (parts name.toList)
  if whole.isEmpty then "." else String.ofList whole

end Stencil.FileName
