import Stencil.Bound.Report
import Stencil.Source.Parse

/-!
# Workspaces

Templates and bound templates may be shared: several catalogues hold the same template, several
bound templates fill it, and content refers to a bound template that is filled further later.  A
workspace keeps every template and bound template once, and everything else refers to them by
handles.  An operation takes the values behind the handles, does its work on them, and stores what
became of them.

## Main definitions

* `TemplateId`, `BoundId` — the handles.
* `SharedContent`, `SharedWrap`, `SharedTemplate` — content, wraps and templates with handles.
* `Workspace` — all that is shared.
* `Workspace.bound`, `Workspace.setBound` — a bound template with its template.
* `Workspace.tree` — content with the bound templates that it refers to.
* `Workspace.parse` — a source parsed into a catalogue of handles.
* `Workspace.report` — a template of a catalogue filled from data.
* `Workspace.describe` — content in short.
-/

namespace Stencil

/-- The handle of a template. -/
structure TemplateId where
  /-- Its place in the workspace. -/
  index : Nat
  deriving DecidableEq, Repr, Inhabited

/-- The handle of a bound template. -/
structure BoundId where
  /-- Its place in the workspace. -/
  index : Nat
  deriving DecidableEq, Repr, Inhabited

/-- Wraps that may refer to shared bound templates. -/
abbrev SharedWrap := Wrap BoundId

/-- Content that may refer to shared bound templates. -/
abbrev SharedContent := Content SharedWrap BoundId

/-- Templates with such wraps. -/
abbrev SharedTemplate := Template SharedWrap

/-- The handles of templates by key. -/
abbrev SharedCatalog := List (String × TemplateId)

/-- Everything that is shared. -/
structure Workspace where
  /-- The templates. -/
  templates : Array SharedTemplate
  /-- The bound templates: the handles of their templates, and their content. -/
  bounds : Array (TemplateId × List (Option SharedContent))
  /-- The adapters that are added to the standard ones, the latest first. -/
  adapters : List Adapter
  /-- The runs of scripts so far. -/
  runs : Runs

namespace Workspace

variable [DigitLimit]

/-- The workspace with nothing in it. -/
def empty : Workspace := ⟨#[], #[], [], []⟩

/-! ### Templates -/

/-- The template of a handle. -/
def template (w : Workspace) (id : TemplateId) : SharedTemplate :=
  w.templates.getD id.index (.blank "")

/-- The workspace with the template of a handle replaced. -/
def setTemplate (w : Workspace) (id : TemplateId) (t : SharedTemplate) : Workspace :=
  { w with templates := w.templates.setIfInBounds id.index t }

/-- The workspace with one more template, and its handle. -/
def addTemplate (w : Workspace) (t : SharedTemplate) : TemplateId × Workspace :=
  (⟨w.templates.size⟩, { w with templates := w.templates.push t })

/-! ### Bound templates -/

/-- The bound template of a handle, with its template as it is now. -/
def bound (w : Workspace) (id : BoundId) : Bound SharedWrap SharedContent :=
  match w.bounds[id.index]? with
  | some (template, bindings) => ⟨w.template template, bindings⟩
  | none => ⟨.blank "", []⟩

/-- The workspace with the bound template of a handle replaced, its template included. -/
def setBound (w : Workspace) (id : BoundId) (b : Bound SharedWrap SharedContent) : Workspace :=
  match w.bounds[id.index]? with
  | some (template, _) =>
    { w.setTemplate template b.template with
      bounds := w.bounds.setIfInBounds id.index (template, b.bindings) }
  | none => w

/-- The workspace with one more bound template for a template, and its handle. -/
def addBound (w : Workspace) (template : TemplateId) (bindings : List (Option SharedContent)) :
    BoundId × Workspace :=
  (⟨w.bounds.size⟩, { w with bounds := w.bounds.push (template, bindings) })

/-- The workspace after an operation on a bound template, and what the operation gave. -/
def onBound {α : Type} (w : Workspace) (id : BoundId)
    (f : Bound SharedWrap SharedContent → Bound SharedWrap SharedContent × α) : Workspace × α :=
  let (b, a) := f (w.bound id)
  (w.setBound id b, a)

/-! ### Content -/

/-- The bound template of a handle as a tree; deeper than `fuel` there is no content.  No bound
template that is not its own content is nested deeper than there are bound templates. -/
def treeOf (w : Workspace) : (fuel : Nat) → BoundId → Tree SharedWrap
  | 0, _ => .empty
  | fuel + 1, id =>
    let b := w.bound id
    .bound b.template (expandBindings (treeOf w fuel) b.bindings)

/-- Content with the bound templates that it refers to. -/
def tree (w : Workspace) (c : SharedContent) : Tree SharedWrap := c.expand (w.treeOf w.bounds.size)

/-- A bound template with the bound templates that it refers to. -/
def boundTree (w : Workspace) (b : Bound SharedWrap SharedContent) :
    Bound SharedWrap (Tree SharedWrap) :=
  b.expand (w.treeOf w.bounds.size)

/-- The workspace with the runs of scripts replaced, beside a result. -/
def afterRuns {α : Type} (w : Workspace) (outcome : α × Runs) : Workspace × α :=
  ({ w with runs := outcome.2 }, outcome.1)

/-- The emission of content to a sink. -/
def emit {σ : Type} (w : Workspace) (c : SharedContent) (k : Sink σ) (s : σ) :
    Workspace × Except Fault EmitResult × σ :=
  let e := Tree.emit (w.tree c) k s w.runs
  ({ w with runs := e.runs }, e.outcome, e.sink)

/-- The bytes of a bound template. -/
def render (w : Workspace) (b : Bound SharedWrap SharedContent) :
    Workspace × Except (Failure SharedWrap) Bytes :=
  w.afterRuns ((w.boundTree b).render w.runs)

/-- The new template that a bound template is fixated to; nothing if it has no placeholders. -/
def fixate (w : Workspace) (b : Bound SharedWrap SharedContent) (separator : String) :
    Workspace × Except (Failure SharedWrap) (Option SharedTemplate) :=
  w.afterRuns ((w.boundTree b).fixate separator w.runs)

/-- The bytes of a template with the same content in all its named slots. -/
def staticWith (w : Workspace) (t : SharedTemplate) (c : SharedContent) :
    Workspace × Except (Failure SharedWrap) (Option Bytes) :=
  w.afterRuns ((w.boundTree (.ofContent t c)).staticBytes w.runs)

/-! ### Catalogues -/

/-- The handle stored under a key. -/
def handle? (c : SharedCatalog) (key : String) : Option TemplateId := c.lookup key

/-- The catalogue with a handle stored under a key, in place of the one that was there. -/
def putHandle (c : SharedCatalog) (key : String) (id : TemplateId) : SharedCatalog :=
  match c with
  | [] => [(key, id)]
  | (k, old) :: rest => if k = key then (k, id) :: rest else (k, old) :: putHandle rest key id

/-- The templates behind the handles of a catalogue. -/
def catalog (w : Workspace) (c : SharedCatalog) : Catalog SharedWrap :=
  c.map fun (key, id) => (key, w.template id)

/-- The workspace and the catalogue after a template of a parsed catalogue is stored.  A template
that was there before was continued only if it has the name that belongs to its key; a handle under
several keys is thus stored once. -/
def storeParsed (m : Markup) (root : String) (w : Workspace) (c : SharedCatalog)
    (entry : String × SharedTemplate) : Workspace × SharedCatalog :=
  match handle? c entry.1 with
  | some id =>
    if entry.2.name = Parsing.nameOf m.pathSep root entry.1 then (w.setTemplate id entry.2, c)
    else (w, c)
  | none =>
    let (id, w) := w.addTemplate entry.2
    (w, putHandle c entry.1 id)

/-- A source parsed into a catalogue of handles. -/
def parse (w : Workspace) (c : SharedCatalog) (m : Markup) (root : String) (source : Lines) :
    Workspace × SharedCatalog × Option (Failure SharedWrap) :=
  let (parsed, e) := (w.catalog c).parse m root source
  let (w, c) := parsed.foldl (fun (w, c) entry => w.storeParsed m root c entry) (w, c)
  (w, c, e)

/-- The bytes of a template of a catalogue filled from data. -/
def report (w : Workspace) (c : SharedCatalog) (key : String) (o : ReportOptions) (data : Value) :
    Workspace × Except (Failure SharedWrap) Bytes :=
  match handle? c key with
  | none => (w, .error (.usage (.noTemplate key)))
  | some id =>
    let (t, outcome, runs) :=
      (w.template id).report key w.adapters o data (w.treeOf w.bounds.size) w.runs
    ({ w.setTemplate id t with runs }, outcome)

/-! ### Content in short -/

/-- Content in short. -/
inductive Description where
  /-- Content that is shown as a text. -/
  | text (s : String)
  /-- A script. -/
  | script
  /-- Content between brackets. -/
  | brackets (before : Bytes) (inner : Description) (after : Bytes)
  /-- Content that is escaped. -/
  | escaper (escape encoding : String) (inner : Description)
  deriving Repr, Inhabited

/-- Content in short. -/
def describe (w : Workspace) : SharedContent → Description
  | .empty => .text "EMPTY"
  | .data bytes => .text ("Data(" ++ Text.quotedBytes bytes ++ ")")
  | .print value _ => .text ("Print(" ++ value.literal ++ ")")
  | .format format values _ =>
    .text ("Printf(" ++ Text.quoted format ++ ", " ++
      Value.commaSeparated (Value.literals values) ++ ")")
  | .generator _ _ => .script
  | .brackets before inner after => .brackets before (describe w inner) after
  | .escaper escape encoding inner => .escaper escape.name encoding.name (describe w inner)
  | .bound template bindings => .text (Bound.mk template bindings).describe
  | .shared ref => .text (w.bound ref).describe

end Workspace

end Stencil
