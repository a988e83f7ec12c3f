import Stencil.Proofs.Content.Written
import Stencil.Source.Parse

/-!
# The layout of a source

The lines of a source nest: between a start line and the end line of the same name stands the body
of a sub-template.  A body is a row of items, each of which is a line of text, a line that is a
placeholder, or a nested region.  A nesting path may be opened several times; what its template
holds is what its openings say, one after the other.

A break stands between two items of one opening if the first one keeps the break behind it and the
second one the break before it.

## Main definitions

* `Item`, `Item.linesOf` — items, and the lines that they are written in.
* `openings` — the bodies that a nesting path has.
* `bodyText` — the text of a body, with placeholders between their markers.
* `Item.logOf` — what the items of a body add to which template, in the order of the source.

## Main results

* `flatten_logAt` — what is added for a path are the bodies that it has.
* `writtenAll_bodyParts` — a body writes its text if its holes are filled with their own markup.
-/

namespace Stencil

variable {ω : Type}

/-- One of the things that a body is made of. -/
inductive Item where
  /-- A line of text, which may hold placeholders. -/
  | plain (text : String)
  /-- A line that is a placeholder. -/
  | block (lead : Bool) (name : String) (trail : Bool)
  /-- A sub-template with what is between its start line and its end line. -/
  | region (lead : Bool) (name : String) (trail : Bool) (body : List Item)

namespace Item

/-- Induction on items, with the hypothesis for all items of a region. -/
@[elab_as_elim]
theorem induct {motive : Item → Prop} (plain : ∀ text, motive (.plain text))
    (block : ∀ lead name trail, motive (.block lead name trail))
    (region : ∀ lead name trail body, (∀ x ∈ body, motive x) →
      motive (.region lead name trail body)) (x : Item) : motive x := by
  refine @Item.rec motive (fun body => ∀ x ∈ body, motive x) plain block region ?_ ?_ x
  · intro x hx
    cases hx
  · intro y rest ih ihs x hx
    rcases List.mem_cons.1 hx with rfl | hx
    · exact ih
    · exact ihs x hx

/-- Whether the break before the item is kept. -/
def lead : Item → Bool
  | plain _ => true
  | block lead _ _ => lead
  | region lead _ _ _ => lead

/-- Whether the break behind the item is kept. -/
def trail : Item → Bool
  | plain _ => true
  | block _ _ trail => trail
  | region _ _ trail _ => trail

/-- Whether something is added to the template around the item; for a region, this is the break
before it. -/
def isAdded : Item → Bool
  | plain _ => true
  | block _ _ _ => true
  | region lead _ _ _ => lead

mutual

/-- The lines of an item. -/
def lines : Item → List Markup.Line
  | plain text => [.plain text]
  | block lead name trail => [.block (.ok lead) (.ok (some name)) (.ok trail)]
  | region lead name trail body =>
    .start (.ok lead) (.ok (some name)) ::
      (linesOf body ++ [.finish (.ok (some name)) (.ok trail)])
  termination_by structural x => x

/-- The lines of a body. -/
def linesOf : List Item → List Markup.Line
  | [] => []
  | x :: rest => x.lines ++ linesOf rest
  termination_by structural body => body

end

end Item

/-- The body of an item that is a region of a name. -/
def Item.bodyNamed (name : String) : Item → Option (List Item)
  | .region _ n _ body => if n = name then some body else none
  | _ => none

/-- The bodies that a nesting path has below a body, in the order of the source. -/
def openings : (path : List String) → List Item → List (List Item)
  | [], body => [body]
  | name :: path, body => (body.filterMap (Item.bodyNamed name)).flatMap (openings path)

/-! ### Texts -/

/-- The line without its empty placeholders. -/
def InlineScan.shown (opening closing : List Char) (scan : InlineScan) : List Char :=
  scan.marked.flatMap (fun (text, name) =>
    text ++ if name.isEmpty then [] else opening ++ name ++ closing) ++ scan.tail

/-- The cut of a line of text. -/
def Markup.scan (m : Markup) (text : String) : InlineScan :=
  .ofLine m.inlineStart.toList m.inlineEnd.toList text.toList

/-- A name between the markers of a placeholder. -/
def Markup.marked (m : Markup) (name : String) : String := m.inlineStart ++ name ++ m.inlineEnd

/-- What an item says itself. -/
def Item.text (m : Markup) : Item → List Char
  | .plain text => (m.scan text).shown m.inlineStart.toList m.inlineEnd.toList
  | .block _ name _ => (m.marked name).toList
  | .region _ _ _ _ => []

/-- The break between an item and the next one. -/
def breakBetween (m : Markup) (x : Item) : List Item → List Char
  | [] => []
  | y :: _ => if x.trail && y.lead then m.lineEnd.toList else []

/-- The text of a body: what its items say, and the breaks between them. -/
def bodyText (m : Markup) : List Item → List Char
  | [] => []
  | x :: rest => x.text m ++ breakBetween m x rest ++ bodyText m rest

/-! ### Parts -/

/-- The pending break as parts, if it is kept. -/
def breakParts (pending : String) (keep : Bool) : List (Part ω) :=
  if keep then Part.bytes (Utf8.encode pending.toList) else []

/-- A cut line as parts; an empty name is no placeholder. -/
def InlineScan.parts (scan : InlineScan) : List (Part ω) :=
  scan.marked.flatMap (fun (text, name) => Part.bytes (Utf8.encode text) ++
    if name.isEmpty then [] else [.hole (String.ofList name) none]) ++
  Part.bytes (Utf8.encode scan.tail)

/-- The parts that an item adds itself. -/
def Item.parts (m : Markup) : Item → List (Part ω)
  | .plain text => (m.scan text).parts
  | .block _ name _ => [.hole name none]
  | .region _ _ _ _ => []

/-- The parts of a body, before which a break is pending. -/
def bodyParts (m : Markup) : (pending : String) → List Item → List (Part ω)
  | _, [] => []
  | pending, x :: rest =>
    breakParts pending x.lead ++ x.parts m ++ bodyParts m (Parsing.breakAfter m x.trail) rest

section Filled

variable (m : Markup)

/-- Each placeholder is filled with its own markup. -/
def Markup.fill (name : String) : Tree ω := .print (.str (m.marked name)) .standard

theorem written_fill (name : String) :
    Tree.written (m.fill name : Tree ω) = .all (Utf8.encode (m.marked name).toList) :=
  (Tree.emit_writes _ [] []).unique <| by
    have hprinted : (Value.str (m.marked name)).printed .standard =
        .ok (Utf8.encode (m.marked name).toList) := Codec.encode_utf8 _
    rw [Markup.fill, Tree.emit, hprinted]
    exact Emission.writes_bytes _ [] []

variable [Wrapping ω (Tree ω)]

@[simp] theorem writtenAll_hole (name : String) :
    Part.writtenAll m.fill [(.hole name none : Part ω)] =
      .all (Utf8.encode (m.marked name).toList) := by
  rw [Part.writtenAll, Part.writtenAll, Written.andThen_all_nil]
  exact written_fill m name

@[simp] theorem writtenAll_breakParts (pending : String) (keep : Bool) :
    Part.writtenAll m.fill (breakParts pending keep : List (Part ω)) =
      .all (Utf8.encode (if keep then pending.toList else [])) := by
  unfold breakParts
  cases keep with
  | false => rfl
  | true => exact Part.writtenAll_bytes _ _

theorem writtenAll_scan (scan : InlineScan) :
    Part.writtenAll m.fill (scan.parts : List (Part ω)) =
      .all (Utf8.encode (scan.shown m.inlineStart.toList m.inlineEnd.toList)) := by
  have hmarked : ∀ marked : List (List Char × List Char),
      Part.writtenAll m.fill (marked.flatMap (fun (text, name) =>
        Part.bytes (Utf8.encode text) ++
          if name.isEmpty then [] else [(.hole (String.ofList name) none : Part ω)])) =
      .all (Utf8.encode (marked.flatMap fun (text, name) => text ++
        if name.isEmpty then [] else m.inlineStart.toList ++ name ++ m.inlineEnd.toList)) := by
    intro marked
    induction marked with
    | nil => rfl
    | cons piece rest ih =>
      obtain ⟨text, name⟩ := piece
      have hname : Part.writtenAll m.fill (if name.isEmpty then []
            else [(.hole (String.ofList name) none : Part ω)]) = .all (Utf8.encode
          (if name.isEmpty then [] else m.inlineStart.toList ++ name ++ m.inlineEnd.toList)) := by
        split
        · rfl
        · rw [writtenAll_hole, Markup.marked]
          simp
      rw [List.flatMap_cons, List.flatMap_cons, Part.writtenAll_append, Part.writtenAll_append, ih,
        hname, Part.writtenAll_bytes]
      simp only [Written.all_andThen_all, Utf8.encode_append]
  rw [InlineScan.parts, InlineScan.shown, Part.writtenAll_append, hmarked, Part.writtenAll_bytes,
    Written.all_andThen_all, Utf8.encode_append]

/-- An item writes its text. -/
theorem writtenAll_itemParts (x : Item) : Part.writtenAll m.fill (x.parts m : List (Part ω)) =
    .all (Utf8.encode (x.text m)) := by
  cases x with
  | plain text => exact writtenAll_scan m (m.scan text)
  | block lead name trail => exact writtenAll_hole m name
  | region lead name trail body => rfl

/-- What is written of a break that is pending before a body. -/
def breakBefore (pending : String) : List Item → List Char
  | [] => []
  | y :: _ => if y.lead then pending.toList else []

theorem breakBefore_breakAfter (x : Item) (rest : List Item) :
    breakBefore (Parsing.breakAfter m x.trail) rest = breakBetween m x rest := by
  cases rest with
  | nil => rfl
  | cons y rest =>
    simp only [breakBefore, breakBetween, Parsing.breakAfter]
    cases x.trail <;> cases y.lead <;> rfl

/-- A body writes its text behind the break that is pending before it. -/
theorem writtenAll_bodyParts (body : List Item) : ∀ pending : String,
    Part.writtenAll m.fill (bodyParts m pending body : List (Part ω)) =
      .all (Utf8.encode (breakBefore pending body ++ bodyText m body)) := by
  induction body with
  | nil => exact fun pending => rfl
  | cons x rest ih =>
    intro pending
    rw [bodyParts, Part.writtenAll_append, Part.writtenAll_append, ih, writtenAll_breakParts,
      writtenAll_itemParts, breakBefore_breakAfter, breakBefore, bodyText]
    simp only [Written.all_andThen_all, Utf8.encode_append, List.append_assoc]

end Filled

/-! ### Logs -/

/-- What is added, in order, each time with the path of the template to which it is added. -/
abbrev Log (ω : Type) := List (List String × List (Part ω))

namespace Log

/-- What is added for a path. -/
def at_ (path : List String) (log : Log ω) : List (List (Part ω)) :=
  log.filterMap fun (p, parts) => if p = path then some parts else none

/-- The log below a name. -/
def below (name : String) (log : Log ω) : Log ω := log.map fun (p, parts) => (name :: p, parts)

variable (log log' : Log ω) (name n : String) (path : List String)

@[simp] theorem at_nil : at_ path ([] : Log ω) = [] := rfl

@[simp] theorem at_append : at_ path (log ++ log') = at_ path log ++ at_ path log' :=
  List.filterMap_append

@[simp] theorem at_below_nil : at_ [] (below name log) = [] := by
  rw [at_, below, List.filterMap_map]
  exact List.filterMap_eq_nil_iff.2 fun _ _ => rfl

@[simp] theorem at_below_cons :
    at_ (n :: path) (below name log) = if name = n then at_ path log else [] := by
  rw [at_, below, List.filterMap_map]
  by_cases h : name = n
  · rw [if_pos h, at_]
    refine List.filterMap_congr fun (p, parts) _ => ?_
    simp [h]
  · rw [if_neg h]
    exact List.filterMap_eq_nil_iff.2 fun (p, parts) _ => by simp [h]

end Log

namespace Item

mutual

/-- What an item adds, before which a break is pending; paths begin at the template around it. -/
def log (m : Markup) (pending : String) : Item → Log ω
  | plain text => [([], breakParts pending true ++ (m.scan text).parts)]
  | block lead name _ => [([], breakParts pending lead ++ [.hole name none])]
  | region lead name _ body =>
    (if lead then [([], breakParts pending true)] else []) ++ (logOf m "" body).below name
  termination_by structural x => x

/-- What a body adds, before which a break is pending. -/
def logOf (m : Markup) (pending : String) : List Item → Log ω
  | [] => []
  | x :: rest => x.log m pending ++ logOf m (Parsing.breakAfter m x.trail) rest
  termination_by structural body => body

end

variable (m : Markup)

/-- To the template around it an item adds its own parts behind the pending break. -/
theorem logAt_nil_log (pending : String) (x : Item) :
    ((x.log m pending : Log ω).at_ []).flatten = breakParts pending x.lead ++ x.parts m ∧
      ((x.log m pending : Log ω).at_ [] ≠ [] ↔ x.isAdded = true) := by
  cases x with
  | plain text => simp [log, Log.at_, parts, Item.lead, isAdded]
  | block lead name trail => simp [log, Log.at_, parts, Item.lead, isAdded]
  | region lead name trail body =>
    rw [log, Log.at_append, Log.at_below_nil, List.append_nil]
    cases lead <;> simp [Log.at_, parts, Item.lead, isAdded, breakParts]

/-- To the template around it a body adds its own parts. -/
theorem logAt_nil_logOf (body : List Item) : ∀ pending : String,
    ((logOf m pending body : Log ω).at_ []).flatten = bodyParts m pending body ∧
      ((logOf m pending body : Log ω).at_ [] ≠ [] ↔ ∃ x ∈ body, x.isAdded = true) := by
  induction body with
  | nil => exact fun pending => ⟨rfl, by simp [logOf]⟩
  | cons x rest ih =>
    intro pending
    obtain ⟨hflat, hadded⟩ := logAt_nil_log (ω := ω) m pending x
    obtain ⟨hflat', hadded'⟩ := ih (Parsing.breakAfter m x.trail)
    rw [logOf, Log.at_append]
    constructor
    · rw [List.flatten_append, hflat, hflat', bodyParts]
    · rw [ne_eq, List.append_eq_nil_iff, not_and_or, ← ne_eq, ← ne_eq, hadded, hadded']
      simp

/-- To nested templates a body adds what the regions of their name do. -/
theorem logAt_cons_logOf (name : String) (path : List String) (body : List Item) :
    ∀ pending : String, (logOf m pending body : Log ω).at_ (name :: path) =
      (body.filterMap (Item.bodyNamed name)).flatMap fun inner => (logOf m "" inner).at_ path := by
  induction body with
  | nil => exact fun pending => rfl
  | cons x rest ih =>
    intro pending
    rw [logOf, Log.at_append, ih]
    cases x with
    | plain text => rfl
    | block lead n trail => rfl
    | region lead n trail inner =>
      -- the break before the region belongs to the template around it
      have hlead : Log.at_ (name :: path)
          (if lead then [([], breakParts pending true)] else [] : Log ω) = [] := by
        cases lead <;> rfl
      rw [log, Log.at_append, hlead, List.nil_append, Log.at_below_cons, List.filterMap_cons,
        bodyNamed]
      by_cases hn : n = name
      · simp only [if_pos hn, List.flatMap_cons]
      · simp only [if_neg hn, List.nil_append]

end Item

/-- **What is added for a path are the bodies that it has**, one after the other. -/
theorem flatten_logAt (m : Markup) : ∀ (path : List String) (body : List Item),
    ((Item.logOf m "" body : Log ω).at_ path).flatten =
        (openings path body).flatMap (bodyParts m "") ∧
      ((Item.logOf m "" body : Log ω).at_ path ≠ [] ↔
        ∃ opening ∈ openings path body, ∃ x ∈ opening, x.isAdded = true) := by
  -- the first name of a path chooses regions, in whose bodies the rest of it is looked up
  intro path
  induction path with
  | nil =>
    intro body
    obtain ⟨hflat, hadded⟩ := Item.logAt_nil_logOf (ω := ω) m body ""
    exact ⟨by simp [hflat, openings], by simp [hadded, openings]⟩
  | cons name path ih =>
    intro body
    rw [Item.logAt_cons_logOf, openings]
    generalize body.filterMap (Item.bodyNamed name) = inners
    -- one opening after the other
    induction inners with
    | nil => simp
    | cons inner rest ihs =>
      obtain ⟨hflat, hadded⟩ := ih inner
      obtain ⟨hflats, hrest⟩ := ihs
      simp only [List.flatMap_cons]
      constructor
      · rw [List.flatten_append, hflat, hflats, List.flatMap_append]
      · rw [ne_eq, List.append_eq_nil_iff, not_and_or, ← ne_eq, ← ne_eq, hadded, hrest]
        simp only [List.mem_append, or_and_right, exists_or]

end Stencil
