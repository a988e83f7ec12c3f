import Stencil.Proofs.Template.WellFormed

/-!
# Edits

An edit is one of the operations that change a template, with its arguments.  An edit that fails
leaves the template as it was, apart from entries of the table without slots.  Templates are built
by edits, one after the other, from one with nothing in it.

## Main definitions

* `Edit`, `Template.edit`, `Template.edits` — operations as values, and what they do.
* `Edit.added` — the bytes that an edit adds.
* `Building`, `BareBuilding` — predicates on templates that building keeps.

## Main results

* `Template.WellFormed.edits` — templates are well-formed after any edits.
* `Template.flatten_fragments_edits` — the fragments hold all that was added, in order.
* `Template.name_edits` — no edits change the name of a template.
* `Template.WellFormed.staticBytes` — a template without placeholders has all its bytes as its
  content.
-/

namespace Stencil

variable {ω : Type}

/-- An operation that changes a template. -/
inductive Edit (ω : Type) where
  /-- Static bytes are added. -/
  | addStatic (data : Bytes)
  /-- Static text is added. -/
  | addText (text : String) (encoding : Encoding)
  /-- A placeholder is added. -/
  | addPlaceholder (name : String) (wrap : Option ω)
  /-- The slots of a name get a wrap, or lose theirs. -/
  | setWrap (name : String) (wrap : Option ω)
  /-- A placeholder is renamed. -/
  | rename (current new : String) (merge : Bool)
  /-- All placeholders are renamed. -/
  | transform (f : String → Except Fault String) (merge : Bool)

namespace Template

/-- The template that an operation gives, or the one it was asked of and the failure. -/
def orKept {ε : Type} (t : Template ω) (toFailure : ε → Failure ω) :
    Except ε (Template ω) → Template ω × Option (Failure ω)
  | .ok t' => (t', none)
  | .error e => (t, some (toFailure e))

/-- The template after an edit, and why the edit failed, if it did. -/
def edit (t : Template ω) : Edit ω → Template ω × Option (Failure ω)
  | .addStatic data => (t.addStatic data, none)
  | .addText text encoding => t.orKept .fault (t.addText text encoding)
  | .addPlaceholder name wrap => t.orKept .fault (t.addPlaceholder name wrap)
  | .setWrap name wrap =>
    match t.setWrap? name wrap with
    | some t' => (t', none)
    | none => (t.dropEmptied name, some (.template (.unknownPlaceholder name t.name)))
  | .rename current new merge => t.orKept .template (t.rename current new merge)
  | .transform f merge => t.orKept id (t.transform f merge)

/-- The template after edits, some of which may fail. -/
def edits (t : Template ω) (es : List (Edit ω)) : Template ω := es.foldl (fun t e => (t.edit e).1) t

@[simp] theorem edits_nil (t : Template ω) : t.edits [] = t := rfl

@[simp] theorem edits_cons (t : Template ω) (e : Edit ω) (es : List (Edit ω)) :
    t.edits (e :: es) = (t.edit e).1.edits es := rfl

theorem edits_append (t : Template ω) (es es' : List (Edit ω)) :
    t.edits (es ++ es') = (t.edits es).edits es' := List.foldl_append

end Template

/-- The bytes that an edit adds to the static content. -/
def Edit.added : Edit ω → Bytes
  | .addStatic data => data
  | .addText text encoding =>
    match encoding.encode text with
    | .ok data => data
    | .error _ => []
  | .addPlaceholder _ _ | .setWrap _ _ | .rename _ _ _ | .transform _ _ => []

/-! ### What an edit keeps -/

namespace Template

/-- What an operation gives when it succeeds also holds after an edit that may fail. -/
theorem orKept_keeps {ε : Type} {P : Template ω → Prop} {t : Template ω}
    {toFailure : ε → Failure ω} {result : Except ε (Template ω)} (h : P t)
    (hok : ∀ t', result = .ok t' → P t') : P (t.orKept toFailure result).1 := by
  cases result with
  | ok t' => exact hok t' rfl
  | error e => exact h

/-- Text is added as the bytes that it is encoded to. -/
theorem addText_eq_ok {t t' : Template ω} {text : String} {encoding : Encoding}
    (ht : t.addText text encoding = .ok t') : ∃ data, t' = t.addStatic data := by
  unfold addText at ht
  cases he : encoding.encode text with
  | error f => rw [he] at ht; cases ht
  | ok data =>
    rw [he] at ht
    cases ht
    exact ⟨data, rfl⟩

theorem WellFormed.addText {t t' : Template ω} (h : t.WellFormed) {text : String}
    {encoding : Encoding} (ht : t.addText text encoding = .ok t') : t'.WellFormed := by
  obtain ⟨data, rfl⟩ := addText_eq_ok ht
  exact h.addStatic data

theorem WellFormed.edit {t : Template ω} (h : t.WellFormed) (e : Edit ω) :
    (t.edit e).1.WellFormed := by
  cases e with
  | addStatic data => exact h.addStatic data
  | addText text encoding => exact orKept_keeps h (fun _ => h.addText)
  | addPlaceholder name wrap => exact orKept_keeps h (fun _ => h.addPlaceholder)
  | setWrap name wrap =>
    cases ht : t.setWrap? name wrap with
    | some t' =>
      rw [Template.edit, ht]
      exact h.setWrap ht
    | none =>
      rw [Template.edit, ht, h.dropEmptied_eq]
      exact h
  | rename current new merge => exact orKept_keeps h (fun _ => h.rename)
  | transform f merge => exact orKept_keeps h (fun _ => h.transform)

/-- Templates are well-formed after any edits. -/
theorem WellFormed.edits (es : List (Edit ω)) :
    ∀ {t : Template ω}, t.WellFormed → (t.edits es).WellFormed := by
  induction es with
  | nil => exact id
  | cons e es ih => exact fun h => ih (h.edit e)

/-! ### The static content -/

theorem flatten_appendToLast (data : Bytes) (fragments : List Bytes) :
    (appendToLast data fragments).flatten = fragments.flatten ++ data := by
  induction fragments with
  | nil => simp [appendToLast]
  | cons f rest ih =>
    cases rest with
    | nil => simp [appendToLast]
    | cons g rest =>
      rw [appendToLast, List.flatten_cons, ih, List.flatten_cons (l := f), List.append_assoc]

/-- Static bytes stand behind all that was there before, however they are divided. -/
theorem flatten_fragments_addStatic (t : Template ω) (data : Bytes) :
    (t.addStatic data).fragments.flatten = t.fragments.flatten ++ data := by
  by_cases hend : t.endsNamed
  · rw [fragments_addStatic_of_endsNamed hend, List.flatten_append, List.flatten_singleton]
  · rw [fragments_addStatic_of_not_endsNamed hend]
    split
    · next h => rw [List.isEmpty_iff.1 h, List.append_nil]
    · exact flatten_appendToLast data t.fragments

theorem flatten_fragments_addPlaceholder {t t' : Template ω} {name : String} {wrap : Option ω}
    (ht : t.addPlaceholder name wrap = .ok t') : t'.fragments.flatten = t.fragments.flatten := by
  obtain ⟨-, rfl⟩ := addPlaceholder_eq_ok_iff.1 ht
  rw [fragments_nameLast, withRoom]
  split
  · rw [flatten_fragments_addStatic, List.append_nil]
  · rfl

/-- A renaming replaces the name, unless that becomes itself. -/
theorem rename_eq_ok {t t' : Template ω} {current new : String} {merge : Bool}
    (ht : t.rename current new merge = .ok t') :
    (current = new ∧ t' = t) ∨ ∃ slots, t' = t.replaceName current new slots := by
  unfold rename at ht
  split at ht
  · cases ht
  · split at ht
    · next heq =>
      cases ht
      exact .inl ⟨heq, rfl⟩
    · split at ht
      · cases ht
        exact .inr ⟨_, rfl⟩
      · split at ht <;> cases ht
        exact .inr ⟨_, rfl⟩

/-- A transformation changes the table and the names at the slots. -/
theorem transform_eq_ok {t t' : Template ω} {f : String → Except Fault String} {merge : Bool}
    (ht : t.transform f merge = .ok t') :
    ∃ slotNames table, t' = { t with slotNames, table } := by
  unfold transform at ht
  split at ht
  · cases ht
  · split at ht
    · cases ht
    · cases ht
      exact ⟨_, _, rfl⟩

theorem fragments_rename {t t' : Template ω} {current new : String} {merge : Bool}
    (ht : t.rename current new merge = .ok t') : t'.fragments = t.fragments := by
  obtain ⟨-, rfl⟩ | ⟨slots, rfl⟩ := rename_eq_ok ht
  · rfl
  · rfl

theorem fragments_transform {t t' : Template ω} {f : String → Except Fault String} {merge : Bool}
    (ht : t.transform f merge = .ok t') : t'.fragments = t.fragments := by
  obtain ⟨slotNames, table, rfl⟩ := transform_eq_ok ht
  rfl

theorem fragments_dropEmptied (t : Template ω) (name : String) :
    (t.dropEmptied name).fragments = t.fragments := by
  unfold dropEmptied
  split <;> rfl

/-- An edit adds its bytes behind all others. -/
theorem flatten_fragments_edit (t : Template ω) (e : Edit ω) :
    (t.edit e).1.fragments.flatten = t.fragments.flatten ++ e.added := by
  cases e with
  | addStatic data => exact flatten_fragments_addStatic t data
  | addText text encoding =>
    rw [edit, addText, Edit.added]
    cases encoding.encode text with
    | ok data => exact flatten_fragments_addStatic t data
    | error f => exact (List.append_nil _).symm
  -- the remaining edits add no bytes
  | addPlaceholder name wrap =>
    rw [Edit.added, List.append_nil]
    exact orKept_keeps (P := fun t' => t'.fragments.flatten = t.fragments.flatten) rfl
      (fun _ => flatten_fragments_addPlaceholder)
  | setWrap name wrap =>
    rw [Edit.added, List.append_nil]
    cases ht : t.setWrap? name wrap with
    | some t' =>
      rw [edit, ht]
      obtain ⟨slots, -, rfl⟩ := Option.map_eq_some_iff.1 ht
      rfl
    | none => rw [edit, ht, fragments_dropEmptied]
  | rename current new merge =>
    rw [Edit.added, List.append_nil]
    exact orKept_keeps (P := fun t' => t'.fragments.flatten = t.fragments.flatten) rfl
      (fun _ ht => by rw [fragments_rename ht])
  | transform f merge =>
    rw [Edit.added, List.append_nil]
    exact orKept_keeps (P := fun t' => t'.fragments.flatten = t.fragments.flatten) rfl
      (fun _ ht => by rw [fragments_transform ht])

/-- The fragments hold all that was added, in order. -/
theorem flatten_fragments_edits (es : List (Edit ω)) : ∀ t : Template ω,
    (t.edits es).fragments.flatten = t.fragments.flatten ++ es.flatMap Edit.added := by
  induction es with
  | nil => intro t; rw [edits_nil, List.flatMap_nil, List.append_nil]
  | cons e es ih =>
    intro t
    rw [edits_cons, ih, flatten_fragments_edit, List.flatMap_cons, List.append_assoc]

/-! ### The name -/

theorem name_addPlaceholder {t t' : Template ω} {name : String} {wrap : Option ω}
    (ht : t.addPlaceholder name wrap = .ok t') : t'.name = t.name := by
  obtain ⟨-, rfl⟩ := addPlaceholder_eq_ok_iff.1 ht
  exact name_withRoom t

theorem name_addText {t t' : Template ω} {text : String} {encoding : Encoding}
    (ht : t.addText text encoding = .ok t') : t'.name = t.name := by
  obtain ⟨data, rfl⟩ := addText_eq_ok ht
  exact name_addStatic t data

theorem name_setWrap {t t' : Template ω} {name : String} {wrap : Option ω}
    (ht : t.setWrap? name wrap = some t') : t'.name = t.name := by
  obtain ⟨slots, -, rfl⟩ := Option.map_eq_some_iff.1 ht
  rfl

theorem name_dropEmptied (t : Template ω) (name : String) : (t.dropEmptied name).name = t.name := by
  unfold dropEmptied
  split <;> rfl

theorem name_rename {t t' : Template ω} {current new : String} {merge : Bool}
    (ht : t.rename current new merge = .ok t') : t'.name = t.name := by
  obtain ⟨-, rfl⟩ | ⟨slots, rfl⟩ := rename_eq_ok ht
  · rfl
  · rfl

theorem name_transform {t t' : Template ω} {f : String → Except Fault String} {merge : Bool}
    (ht : t.transform f merge = .ok t') : t'.name = t.name := by
  obtain ⟨slotNames, table, rfl⟩ := transform_eq_ok ht
  rfl

/-- No edit changes the name of a template. -/
@[simp] theorem name_edit (t : Template ω) (e : Edit ω) : (t.edit e).1.name = t.name := by
  cases e with
  | addStatic data => exact name_addStatic t data
  | addText text encoding =>
    exact orKept_keeps (P := fun t' => t'.name = t.name) rfl fun _ => name_addText
  | addPlaceholder name wrap =>
    exact orKept_keeps (P := fun t' => t'.name = t.name) rfl fun _ => name_addPlaceholder
  | setWrap name wrap =>
    rw [edit]
    split
    · next ht => exact name_setWrap ht
    · exact name_dropEmptied t name
  | rename current new merge =>
    exact orKept_keeps (P := fun t' => t'.name = t.name) rfl fun _ => name_rename
  | transform f merge =>
    exact orKept_keeps (P := fun t' => t'.name = t.name) rfl fun _ => name_transform

@[simp] theorem name_edits (es : List (Edit ω)) : ∀ t : Template ω, (t.edits es).name = t.name := by
  induction es with
  | nil => exact fun t => rfl
  | cons e es ih => exact fun t => (ih _).trans (t.name_edit e)

/-! ### Templates without placeholders -/

/-- Two fragments have a named slot between them, so without placeholders there is one fragment at
the most. -/
theorem WellFormed.length_fragments_le_one {t : Template ω} (h : t.WellFormed)
    (hs : t.isStatic = true) : t.fragments.length ≤ 1 := by
  rcases Nat.lt_or_ge 1 t.fragments.length with hlt | hge
  -- slot `1` is between two fragments, so it has a name
  · obtain ⟨name, hname⟩ := Option.isSome_iff_exists.1 (h.interior 1 Nat.one_pos hlt)
    have hmem := h.lists.mem_names hname
    rw [isStatic, List.isEmpty_iff] at hs
    rw [hs] at hmem
    cases hmem
  · exact hge

/-- A well-formed template without placeholders has all its bytes as its content. -/
theorem WellFormed.staticBytes {t : Template ω} (h : t.WellFormed) :
    t.staticBytes = .ok (if t.isStatic then some t.fragments.flatten else none) := by
  unfold Template.staticBytes
  cases hs : t.isStatic with
  | false => rfl
  | true =>
    have hlen := h.length_fragments_le_one hs
    match hf : t.fragments, hlen with
    | [], _ => rfl
    | [f], _ => simp

end Template

/-! ### Predicates that building keeps -/

/-- A predicate that a template with nothing in it has, and that building keeps. -/
structure Building (P : Template ω → Prop) : Prop where
  /-- A template with nothing in it has it. -/
  blank : ∀ name, P (.blank name)
  /-- Static bytes keep it. -/
  addStatic : ∀ {t} (data : Bytes), P t → P (t.addStatic data)
  /-- A placeholder keeps it. -/
  addPlaceholder : ∀ {t t' name wrap}, P t → t.addPlaceholder name wrap = .ok t' → P t'

/-- A predicate that a template with nothing in it has, and that building without wraps keeps. -/
structure BareBuilding (P : Template ω → Prop) : Prop where
  /-- A template with nothing in it has it. -/
  blank : ∀ name, P (.blank name)
  /-- Static bytes keep it. -/
  addStatic : ∀ {t} (data : Bytes), P t → P (t.addStatic data)
  /-- A placeholder without a wrap keeps it. -/
  addPlaceholder : ∀ {t t' name}, P t → t.addPlaceholder name none = .ok t' → P t'

theorem Building.bare {P : Template ω → Prop} (hP : Building P) : BareBuilding P where
  blank := hP.blank
  addStatic := hP.addStatic
  addPlaceholder := hP.addPlaceholder

theorem building_wellFormed : Building (Template.WellFormed (ω := ω)) where
  blank := Template.wellFormed_blank
  addStatic data h := h.addStatic data
  addPlaceholder h ht := h.addPlaceholder ht

/-- A template that edits build from one with nothing in it. -/
def Template.IsBuilt (t : Template ω) : Prop := ∃ name es, t = (blank name).edits es

theorem Template.IsBuilt.edit {t : Template ω} (h : t.IsBuilt) (e : Edit ω) :
    (t.edit e).1.IsBuilt := by
  obtain ⟨name, es, rfl⟩ := h
  exact ⟨name, es ++ [e], by rw [edits_append]; rfl⟩

theorem Template.IsBuilt.wellFormed {t : Template ω} (h : t.IsBuilt) : t.WellFormed := by
  obtain ⟨name, es, rfl⟩ := h
  exact (wellFormed_blank name).edits es

theorem building_isBuilt : Building (Template.IsBuilt (ω := ω)) where
  blank name := ⟨name, [], rfl⟩
  addStatic data h := h.edit (.addStatic data)
  addPlaceholder {t t' name wrap} h ht := by
    have := h.edit (.addPlaceholder name wrap)
    rwa [Template.edit, ht] at this

end Stencil
