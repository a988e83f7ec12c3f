/-!
# Line breaks of files

In files of any origin a line ends in a line feed, a carriage return, or a carriage return and a
line feed.  Reading makes a line feed of each of them.

## Main definitions

* `unifyBreaks` — a text with line feeds only.
-/

namespace Stencil.Text

/-- The text with every line break as a line feed. -/
def unifyBreaks : List Char → List Char
  | [] => []
  | '\r' :: '\n' :: s => '\n' :: unifyBreaks s
  | '\r' :: s => '\n' :: unifyBreaks s
  | c :: s => c :: unifyBreaks s

@[simp] theorem unifyBreaks_nil : unifyBreaks [] = [] := rfl

end Stencil.Text
