import Mathlib.Data.List.Basic
import Stencil.Proofs.Template.Edits

/-!
# The parts of a template

What a template stands for is a row of parts: single bytes, and holes that have a name and perhaps a
wrap.  How the bytes are divided into fragments does not show in it, nor do empty fragments.
Building adds parts at the end of the row.

## Main definitions

* `Part`, `Template.parts` — the parts of a template.
* `Template.holes` — the named slots in order, each with its name and wrap.

## Main results

* `Template.WellFormed.parts_addStatic`, `Template.WellFormed.parts_addPlaceholder` — building adds
  parts at the end.
* `Template.WellFormed.isStatic_iff_holes` — a template without holes is static, and the other way
  round.
-/

namespace Stencil

variable {ω : Type}

/-- A part of a template. -/
inductive Part (ω : Type) where
  /-- A static byte. -/
  | byte (b : UInt8)
  /-- A placeholder with its wrap, if it has one. -/
  | hole (name : String) (wrap : Option ω)

/-- The name and the wrap of a hole. -/
def Part.hole? : Part ω → Option (String × Option ω)
  | .byte _ => none
  | .hole name wrap => some (name, wrap)

/-- Bytes as parts. -/
def Part.bytes (data : Bytes) : List (Part ω) := data.map .byte

@[simp] theorem Part.bytes_nil : (Part.bytes [] : List (Part ω)) = [] := rfl

@[simp] theorem Part.bytes_append (data more : Bytes) :
    (Part.bytes (data ++ more) : List (Part ω)) = Part.bytes data ++ Part.bytes more :=
  List.map_append

@[simp] theorem Part.filterMap_hole?_bytes (data : Bytes) :
    (Part.bytes data : List (Part ω)).filterMap Part.hole? = [] := by
  rw [Part.bytes, List.filterMap_map]
  exact List.filterMap_eq_nil_iff.2 fun _ _ => rfl

/-! ### Fragments and the slots around them -/

/-- The fragments from `slot` on, with what stands at the slots around them. -/
def interleave (at_ : Nat → List (Part ω)) : (slot : Nat) → List Bytes → List (Part ω)
  | slot, [] => at_ slot
  | slot, f :: rest => at_ slot ++ Part.bytes f ++ interleave at_ (slot + 1) rest

section Interleave

variable {at_ at' : Nat → List (Part ω)}

theorem interleave_cons (slot : Nat) (f : Bytes) (rest : List Bytes) :
    interleave at_ slot (f :: rest) =
      at_ slot ++ (Part.bytes f ++ interleave at_ (slot + 1) rest) := by
  rw [← List.append_assoc]
  rfl

theorem interleave_concat (data : Bytes) : ∀ (fragments : List Bytes) (slot : Nat),
    interleave at_ slot (fragments ++ [data]) =
      interleave at_ slot fragments ++ Part.bytes data ++ at_ (slot + fragments.length + 1) := by
  intro fragments
  induction fragments with
  | nil => exact fun slot => rfl
  | cons f rest ih =>
    intro slot
    have hlen : slot + (f :: rest).length + 1 = slot + 1 + rest.length + 1 := by
      rw [List.length_cons]
      omega
    rw [List.cons_append, interleave_cons, ih, interleave_cons, hlen]
    simp only [List.append_assoc]

/-- Bytes added to the last fragment come last if nothing stands behind it. -/
theorem interleave_appendToLast (data : Bytes) : ∀ (fragments : List Bytes) (slot : Nat),
    fragments ≠ [] → at_ (slot + fragments.length) = [] →
      interleave at_ slot (Template.appendToLast data fragments) =
        interleave at_ slot fragments ++ Part.bytes data := by
  intro fragments
  induction fragments with
  | nil => exact fun slot hne => absurd rfl hne
  | cons f rest ih =>
    intro slot _ hlast
    cases rest with
    | nil =>
      have hnone : at_ (slot + 1) = [] := hlast
      simp [Template.appendToLast, interleave, hnone]
    | cons g rest =>
      have hlast' : at_ (slot + 1 + (g :: rest).length) = [] := by
        rw [List.length_cons] at hlast
        rwa [Nat.add_assoc, Nat.add_comm 1]
      rw [Template.appendToLast, interleave_cons, ih (slot + 1) (List.cons_ne_nil _ _) hlast',
        interleave_cons slot f]
      simp only [List.append_assoc]

/-- What is put at the last slot comes last if nothing was there. -/
theorem interleave_last : ∀ (fragments : List Bytes) (slot : Nat),
    (∀ s, s < slot + fragments.length → at' s = at_ s) → at_ (slot + fragments.length) = [] →
      interleave at' slot fragments =
        interleave at_ slot fragments ++ at' (slot + fragments.length) := by
  intro fragments
  induction fragments with
  | nil =>
    intro slot _ hlast
    have hnone : at_ slot = [] := hlast
    simp [interleave, hnone]
  | cons f rest ih =>
    intro slot hsame hlast
    have hlen : slot + (f :: rest).length = slot + 1 + rest.length := by
      rw [List.length_cons]
      omega
    rw [hlen] at hsame hlast ⊢
    rw [interleave_cons, ih (slot + 1) hsame hlast, hsame slot (by omega), interleave_cons]
    simp only [List.append_assoc]

theorem filterMap_hole?_interleave : ∀ (fragments : List Bytes) (slot : Nat),
    (interleave at_ slot fragments).filterMap Part.hole? =
      (List.range' slot (fragments.length + 1)).flatMap fun s => (at_ s).filterMap Part.hole? := by
  intro fragments
  induction fragments with
  | nil => exact fun slot => by simp [interleave]
  | cons f rest ih =>
    intro slot
    rw [interleave_cons, List.filterMap_append, List.filterMap_append, Part.filterMap_hole?_bytes,
      ih, List.nil_append, List.length_cons, List.range'_succ (n := rest.length + 1),
      List.flatMap_cons]

/-- Fragments with nothing at their slots are their bytes. -/
theorem interleave_of_nil (fragments : List Bytes) : ∀ slot : Nat, (∀ s, at_ s = []) →
    interleave at_ slot fragments = Part.bytes fragments.flatten := by
  induction fragments with
  | nil => exact fun slot hnil => hnil slot
  | cons f rest ih =>
    intro slot hnil
    rw [interleave_cons, hnil, ih _ hnil, List.flatten_cons, Part.bytes_append, List.nil_append]

end Interleave

namespace Template

/-- The hole at a slot that has a name. -/
def slotParts (t : Template ω) (slot : Nat) : List (Part ω) :=
  match t.nameAt slot with
  | none => []
  | some name => [.hole name (t.wrapAt slot)]

/-- The parts of a template. -/
def parts (t : Template ω) : List (Part ω) := interleave t.slotParts 0 t.fragments

/-- The named slots in order, each with its name and wrap. -/
def holes (t : Template ω) : List (String × Option ω) :=
  (List.range t.slotCount).filterMap fun slot =>
    (t.nameAt slot).map fun name => (name, t.wrapAt slot)

@[simp] theorem parts_blank (name : String) : (blank name : Template ω).parts = [] := rfl

theorem slotParts_of_none {t : Template ω} {slot : Nat} (h : t.nameAt slot = none) :
    t.slotParts slot = [] := by
  rw [slotParts, h]

@[simp] theorem slotParts_addStatic (t : Template ω) (data : Bytes) :
    (t.addStatic data).slotParts = t.slotParts := by
  funext slot
  rw [slotParts, nameAt_addStatic, wrapAt_addStatic, slotParts]

/-- The holes of a template are those among its parts. -/
theorem holes_eq_filterMap_parts (t : Template ω) : t.holes = t.parts.filterMap Part.hole? := by
  rw [parts, filterMap_hole?_interleave, holes, List.range_eq_range', slotCount,
    List.filterMap_eq_flatMap_toList]
  congr 1
  funext slot
  rw [slotParts]
  cases t.nameAt slot <;> rfl

namespace WellFormed

variable {t t' : Template ω}

theorem slotParts_eq_nil (h : t.WellFormed) {slot : Nat} (hs : t.fragments.length < slot) :
    t.slotParts slot = [] := slotParts_of_none (h.nameAt_eq_none hs)

/-- Static bytes are parts at the end. -/
theorem parts_addStatic (h : t.WellFormed) (data : Bytes) :
    (t.addStatic data).parts = t.parts ++ Part.bytes data := by
  rw [parts, slotParts_addStatic]
  by_cases hend : t.endsNamed
  · rw [fragments_addStatic_of_endsNamed hend, interleave_concat, Nat.zero_add,
      h.slotParts_eq_nil (Nat.lt_succ_self _), List.append_nil, parts]
  · rw [fragments_addStatic_of_not_endsNamed hend]
    -- nothing stands behind the last fragment, so more bytes in it are parts at the end
    have hlast : t.slotParts t.fragments.length = [] :=
      slotParts_of_none (nameAt_of_not_endsNamed hend)
    split
    · next hdata => rw [List.isEmpty_iff.1 hdata, Part.bytes_nil, List.append_nil, parts]
    · rw [parts]
      cases hf : t.fragments with
      | nil =>
        rw [hf] at hlast
        have hnext : t.slotParts 1 = [] := h.slotParts_eq_nil (by rw [hf]; exact Nat.one_pos)
        have hfirst : t.slotParts 0 = [] := hlast
        simp [appendToLast, interleave, hnext, hfirst]
      | cons f rest =>
        rw [hf] at hlast
        refine interleave_appendToLast data _ 0 (List.cons_ne_nil _ _) ?_
        rw [Nat.zero_add]
        exact hlast

theorem parts_nameLast (h : t.WellFormed) (hend : ¬ t.endsNamed) (name : String)
    (wrap : Option ω) : (t.nameLast name wrap).parts = t.parts ++ [.hole name wrap] := by
  have hfree := nameAt_of_not_endsNamed hend
  have hname := nameAt_nameLast (h.length_slotNames_le hend) name wrap
  have hwrap := wrapAt_nameLast name wrap (h.wrapAt_eq_none hfree)
  -- only the last slot changes, and nothing was there
  have hlast : (t.nameLast name wrap).slotParts t.fragments.length = [.hole name wrap] := by
    simp only [slotParts, hname, hwrap, if_true]
  have hbefore (s : Nat) (hs : s < 0 + t.fragments.length) :
      (t.nameLast name wrap).slotParts s = t.slotParts s := by
    have hne : s ≠ t.fragments.length := by omega
    simp only [slotParts, hname, hwrap, if_neg hne]
  have hempty : t.slotParts (0 + t.fragments.length) = [] := by
    rw [Nat.zero_add]
    exact slotParts_of_none hfree
  rw [parts, fragments_nameLast, interleave_last t.fragments 0 hbefore hempty, Nat.zero_add, hlast,
    parts]

/-- A placeholder is a hole at the end. -/
theorem parts_addPlaceholder (h : t.WellFormed) {name : String} {wrap : Option ω}
    (ht : t.addPlaceholder name wrap = .ok t') : t'.parts = t.parts ++ [.hole name wrap] := by
  obtain ⟨-, rfl⟩ := addPlaceholder_eq_ok_iff.1 ht
  rw [h.withRoom.parts_nameLast h.not_endsNamed_withRoom, Template.withRoom]
  split
  · rw [h.parts_addStatic, Part.bytes_nil, List.append_nil]
  · rfl

/-! ### Templates without holes -/

theorem isStatic_iff_nameAt (h : t.WellFormed) :
    t.isStatic = true ↔ ∀ slot, t.nameAt slot = none := by
  rw [isStatic, List.isEmpty_iff]
  constructor
  · intro hs slot
    cases hn : t.nameAt slot with
    | none => rfl
    | some name =>
      have hmem := h.lists.mem_names hn
      rw [hs] at hmem
      cases hmem
  · intro hnone
    cases ht : t.table with
    | nil => rfl
    | cons e rest =>
      have hmem : e.1 ∈ t.table.names := by
        rw [ht, SlotTable.names_cons]
        exact List.mem_cons_self
      obtain ⟨slot, hslot⟩ := h.lists.exists_slot hmem
      rw [hnone] at hslot
      cases hslot

theorem isStatic_iff_holes (h : t.WellFormed) : t.isStatic = true ↔ t.holes = [] := by
  rw [h.isStatic_iff_nameAt, holes, List.filterMap_eq_nil_iff]
  constructor
  · intro hnone slot _
    rw [hnone]
    rfl
  · intro hholes slot
    cases hn : t.nameAt slot with
    | none => rfl
    | some name =>
      have hle := h.inRange slot (by rw [hn]; rfl)
      have hnone := hholes slot (List.mem_range.2 (Nat.lt_succ_of_le hle))
      rw [hn] at hnone
      cases hnone

/-- A template without holes has its static bytes as its parts. -/
theorem parts_of_isStatic (h : t.WellFormed) (hs : t.isStatic = true) :
    t.parts = Part.bytes t.fragments.flatten :=
  interleave_of_nil t.fragments 0 fun slot => slotParts_of_none (h.isStatic_iff_nameAt.1 hs slot)

end WellFormed
end Template
end Stencil
