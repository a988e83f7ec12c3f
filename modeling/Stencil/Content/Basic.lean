import Stencil.Content.Html
import Stencil.Content.Sink

/-!
# Content

Content is what can be bound to a slot and emitted to a sink: bytes, a value as text, values filled
into a format, a script of the caller, content between brackets, content that is escaped on its way,
and a template with content in its slots.  The last makes content a tree.

Content may also refer to a bound template that is shared, and may still change, by a reference of
type `ρ`.  Content without references is a `Tree`; only trees are emitted.

A script is a program that writes to the sink and goes on as the sink answers.  Wraps are functions
from content to content, in a form that can be shown.

## Main definitions

* `Content`, `Script` — content and scripts, with wraps in `ω` and references in `ρ`.
* `Tree` — content without references.
* `Content.expand` — content with bound templates in place of references.
* `Wrap`, `Wrap.apply` — wraps and what they do.
* `Act`, `Script.ofActs` — scripts that count what they write.
-/

namespace Stencil

/-- A function of the caller, with the name it is shown by. -/
structure Named (α β : Type) where
  /-- The name. -/
  name : String
  /-- The function. -/
  run : α → β

/-- A function that escapes a text, or gives up. -/
abbrev Escape := Named Points (Except Fault Points)

/-- The escape for HTML. -/
def Escape.html : Escape := ⟨"html", fun s => .ok (Html.escapePoints s)⟩

/-- What a script returns: a value that counts the bytes it wrote, or a result. -/
inductive Returned where
  /-- A value that is or spells the number of bytes. -/
  | value (v : Value)
  /-- A result. -/
  | result (r : EmitResult)
  deriving Repr

mutual

/-- Content, with wraps in `ω` and references to shared bound templates in `ρ`. -/
inductive Content (ω ρ : Type) where
  /-- Nothing. -/
  | empty
  /-- Bytes. -/
  | data (bytes : Bytes)
  /-- A value as text. -/
  | print (value : Value) (encoding : Encoding)
  /-- Values filled into a format. -/
  | format (format : Points) (values : List Value) (encoding : Encoding)
  /-- A script, with a label to know its runs by. -/
  | generator (label : Option String) (script : Script ω ρ)
  /-- Content between brackets. -/
  | brackets (before : Bytes) (inner : Content ω ρ) (after : Bytes)
  /-- Content that is escaped on its way to the sink. -/
  | escaper (escape : Escape) (encoding : Encoding) (inner : Content ω ρ)
  /-- A template with content in its slots. -/
  | bound (template : Template ω) (bindings : List (Option (Content ω ρ)))
  /-- A bound template that is shared. -/
  | shared (ref : ρ)

/-- A program that writes to a sink. -/
inductive Script (ω ρ : Type) where
  /-- The end, with what is returned. -/
  | done (returned : Returned)
  /-- The end by a fault. -/
  | giveUp (f : Fault)
  /-- One write; the script goes on as the sink answers. -/
  | write (data : Bytes) (next : WriteOutcome → Script ω ρ)
  /-- An emission of content; the script goes on with its result. -/
  | emit (content : Content ω ρ) (next : EmitResult → Script ω ρ)

end

instance {ω ρ : Type} : Inhabited (Content ω ρ) := ⟨.empty⟩

/-- Content without references. -/
abbrev Tree (ω : Type) := Content ω Empty

/-! ### References -/

variable {ω ρ τ : Type}

mutual

/-- The content with other content in place of references. -/
def Content.expand (f : ρ → Content ω τ) : Content ω ρ → Content ω τ
  | .empty => .empty
  | .data bytes => .data bytes
  | .print value encoding => .print value encoding
  | .format format values encoding => .format format values encoding
  | .generator label script => .generator label (script.expand f)
  | .brackets before inner after => .brackets before (inner.expand f) after
  | .escaper escape encoding inner => .escaper escape encoding (inner.expand f)
  | .bound template bindings => .bound template (expandBindings f bindings)
  | .shared ref => f ref
  termination_by structural c => c

/-- The script with other content in place of references. -/
def Script.expand (f : ρ → Content ω τ) : Script ω ρ → Script ω τ
  | .done returned => .done returned
  | .giveUp e => .giveUp e
  | .write data next => .write data fun outcome => (next outcome).expand f
  | .emit content next => .emit (content.expand f) fun result => (next result).expand f
  termination_by structural s => s

/-- The bindings with other content in place of references. -/
def expandBindings (f : ρ → Content ω τ) :
    List (Option (Content ω ρ)) → List (Option (Content ω τ))
  | [] => []
  | none :: rest => none :: expandBindings f rest
  | some c :: rest => some (c.expand f) :: expandBindings f rest
  termination_by structural bs => bs

end

/-! ### Wraps -/

/-- A span element around content. -/
def Content.span (identity className : String) (c : Content ω ρ) : Content ω ρ :=
  .brackets (Utf8.encode (Html.spanStart identity className).toList) c
    (Utf8.encode Html.spanEnd.toList)

/-- What is applied to content when it is bound. -/
class Wrapping (ω : Type) (κ : outParam Type) where
  /-- The content under a wrap. -/
  apply : ω → κ → κ

/-- A function from content to content. -/
inductive Wrap (ρ : Type) where
  /-- The content as it is. -/
  | identity
  /-- The content between brackets. -/
  | brackets (before after : Bytes)
  /-- The content escaped on its way. -/
  | escaper (escape : Escape)
  /-- The content in a span element. -/
  | span (identity className : String)
  /-- Other content. -/
  | replace (other : Content (Wrap ρ) ρ)
  /-- The content under wraps, the first one innermost. -/
  | chain (wraps : List (Wrap ρ))
  /-- A wrap with the label it is shown by. -/
  | labelled (label : String) (wrap : Wrap ρ)

/-- The wrap that escapes for HTML. -/
def Wrap.html : Wrap ρ := .escaper Escape.html

mutual

/-- The content under a wrap. -/
def Wrap.apply : Wrap ρ → Content (Wrap ρ) ρ → Content (Wrap ρ) ρ
  | .identity, c => c
  | .brackets before after, c => .brackets before c after
  | .escaper escape, c => .escaper escape .standard c
  | .span identity className, c => c.span identity className
  | .replace other, _ => other
  | .chain wraps, c => applyAll wraps c
  | .labelled _ wrap, c => wrap.apply c
  termination_by structural w => w

/-- The content under wraps, the first one innermost. -/
def applyAll : List (Wrap ρ) → Content (Wrap ρ) ρ → Content (Wrap ρ) ρ
  | [], c => c
  | w :: rest, c => applyAll rest (w.apply c)
  termination_by structural ws => ws

end

instance : Wrapping (Wrap ρ) (Content (Wrap ρ) ρ) := ⟨Wrap.apply⟩

/-! ### Scripts that count -/

/-- One step of a script that counts the bytes it writes. -/
inductive Act (ω ρ : Type) where
  /-- A write, the answer to which is counted; a fault ends the script. -/
  | write (data : Bytes)
  /-- A write, the refusal of which is ignored. -/
  | tryWrite (data : Bytes)
  /-- A whole byte string written; an error is ignored. -/
  | writeAll (data : Bytes)
  /-- Content emitted; an error ends the script. -/
  | emit (content : Content ω ρ)
  /-- The end by a fault. -/
  | giveUp (f : Fault)

/-- The script of some steps, after `total` bytes; `final` says what it returns for their sum. -/
def Script.ofActs (final : Int → Returned) : List (Act ω ρ) → (total : Int) → Script ω ρ
  | [], total => .done (final total)
  | .write data :: acts, total => .write data fun
    | .took n => ofActs final acts (total + n)
    | .tookAll => ofActs final acts (total + data.length)
    | .gaveUp f => .giveUp f
  | .tryWrite data :: acts, total => .write data fun
    | .took n => ofActs final acts (total + n)
    | .tookAll => ofActs final acts (total + data.length)
    | .gaveUp f => if f.isRefusal then ofActs final acts total else .giveUp f
  | .writeAll data :: acts, total => .emit (.data data) fun r =>
    ofActs final acts (total + r.count)
  | .emit content :: acts, total => .emit content fun r =>
    match r.error with
    | none => ofActs final acts (total + r.count)
    | some e => .done (.result ⟨total + r.count, some e⟩)
  | .giveUp f :: _, _ => .giveUp f

end Stencil
