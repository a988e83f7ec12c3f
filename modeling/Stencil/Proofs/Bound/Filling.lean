import Stencil.Bound.Fill
import Stencil.Proofs.Bound.Binding
import Stencil.Proofs.Template.Produced
import Stencil.Proofs.Text.Mark

/-!
# What filling changes

Filling goes through the slot table of a bound template and binds as it goes, and whether it leaves
a placeholder alone may depend on what is bound.  But the slots of a name are its own, so what it
does for a name depends on what was bound before the whole; and filling again changes nothing.

## Main definitions

* `Path.Tells` — what a specification tells.
* `Bound.Looks`, `Bound.Reads` — the placeholders that are looked up, and what the data has there.
* `Bound.Fills` — what filling the placeholders of some names does to the slots.

## Main results

* `Path.tells_iff` — the first blank splits a specification.
* `Bound.Fills.trans` — filling some names and then others.
* `Bound.fillTable_cons`, `Bound.fillTable_run` — one placeholder, and all of a table.
* `Bound.fill_exact` — what filling does.
-/

namespace Stencil

theorem Value.isSome_iff {v : Value} : v.isSome = true ↔ v ≠ .none := by
  cases v <;> simp [Value.isSome]

/-! ### Specifications -/

namespace Path

/-- What a specification tells: a format before its first blank and a path after it; but only a path
if nothing is before the blank, or if there is none. -/
inductive Tells : (spec format path : List Char) → Prop where
  /-- There is a format before the first blank. -/
  | formatted {format : List Char} (path : List Char) (hne : format ≠ []) (hfree : ' ' ∉ format) :
    Tells (format ++ ' ' :: path) format path
  /-- There is no format. -/
  | plain {path : List Char} (h : ' ' ∈ path → path.head? = some ' ') : Tells path [] path

theorem Tells.splitSpec_eq {spec format path : List Char} (h : Tells spec format path) :
    splitSpec spec = (format, path) := by
  cases h with
  | formatted path hne hfree =>
    have hcut := Text.cut?_append (Text.borderless_singleton ' ') (by simp)
      (mt (List.singleton_infix_iff _ _).1 hfree) path
    rw [List.append_assoc, List.singleton_append] at hcut
    cases format with
    | nil => exact absurd rfl hne
    | cons c format => rw [splitSpec, hcut]
  | plain hstart =>
    rw [splitSpec]
    cases hcut : Text.cut? [' '] spec with
    | none => rfl
    | some parts =>
      have hblank : ' ' ∈ spec := by
        rw [Text.cut?_eq_some hcut]
        simp
      obtain ⟨rest, rfl⟩ := List.head?_eq_some_iff.1 (hstart hblank)
      have hcut' : Text.cut? [' '] ([] ++ [' '] ++ rest) = some ([], rest) :=
        Text.cut?_append (Text.borderless_singleton ' ') (by simp) (by simp) rest
      rw [List.nil_append, List.singleton_append, hcut] at hcut'
      cases hcut'
      rfl

theorem exists_tells (spec : List Char) : ∃ format path, Tells spec format path := by
  by_cases hblank : ' ' ∈ spec
  · obtain ⟨format, path, rfl, hfree⟩ := List.eq_append_cons_of_mem hblank
    by_cases hne : format = []
    · exact ⟨[], _, .plain fun _ => by rw [hne]; rfl⟩
    · exact ⟨format, path, .formatted path hne hfree⟩
  · exact ⟨[], spec, .plain fun h => absurd h hblank⟩

/-- The first blank splits a specification. -/
theorem tells_iff {spec format path : List Char} :
    Tells spec format path ↔ splitSpec spec = (format, path) := by
  refine ⟨Tells.splitSpec_eq, fun h => ?_⟩
  obtain ⟨format', path', htells⟩ := exists_tells spec
  rw [htells.splitSpec_eq] at h
  cases h
  exact htells

end Path

namespace Bound

variable {ω ρ : Type} {added : List Adapter} {o : FillOptions} {data : Value}

/-! ### What the data has for a placeholder -/

/-- A placeholder is looked up: its name starts with the marker and tells a format and a path after
it, and it may be overwritten or has nothing bound. -/
structure Looks {κ : Type} (o : FillOptions) (b : Bound ω κ) (name : String)
    (format path : List Char) : Prop where
  /-- The template has the placeholder. -/
  mem : name ∈ b.template.names
  /-- Its name starts with the marker. -/
  marked : ∃ spec, name.toList = o.marker.toList ++ spec ∧ Path.Tells spec format path
  /-- It is not to be left as it is. -/
  free : o.overwrite = true ∨
    ∀ s, b.template.nameAt s = some name → ∀ c, b.bindings[s]? ≠ some (some c)

theorem spec?_eq_some_iff {marker name : String} {spec : List Char} :
    spec? marker name = some spec ↔ name.toList = marker.toList ++ spec := by
  unfold spec?
  split
  · next hstart =>
    obtain ⟨rest, hrest⟩ := List.isPrefixOf_iff_prefix.1 hstart
    rw [← hrest, ← String.length_toList, List.drop_left, Option.some.injEq,
      List.append_cancel_left_eq]
  · next hstart =>
    refine iff_of_false (by simp) fun h => hstart ?_
    exact List.isPrefixOf_iff_prefix.2 ⟨spec, h.symm⟩

theorem looks_iff {κ : Type} {b : Bound ω κ} {name : String} {format path : List Char} :
    b.Looks o name format path ↔ name ∈ b.template.names ∧
    (spec? o.marker name).map Path.splitSpec = some (format, path) ∧
    (o.overwrite = true ∨
      ∀ s, b.template.nameAt s = some name → ∀ c, b.bindings[s]? ≠ some (some c)) := by
  have hmarked : (spec? o.marker name).map Path.splitSpec = some (format, path) ↔
      ∃ spec, name.toList = o.marker.toList ++ spec ∧ Path.Tells spec format path := by
    simp only [Option.map_eq_some_iff, spec?_eq_some_iff, Path.tells_iff]
  rw [hmarked]
  exact ⟨fun ⟨hmem, hmarked, hfree⟩ => ⟨hmem, hmarked, hfree⟩,
    fun ⟨hmem, hmarked, hfree⟩ => ⟨hmem, hmarked, hfree⟩⟩

section Data

variable [DigitLimit]

/-- A placeholder with the format is looked up, and its path leads to the outcome. -/
def Reads {κ : Type} (added : List Adapter) (o : FillOptions) (data : Value) (b : Bound ω κ)
    (name : String) (format : List Char) (outcome : Except (Failure ω) Value) : Prop :=
  ∃ path, b.Looks o name format path ∧
    Path.resolve added o.separator (String.ofList path) data = outcome

section Reads

variable {κ : Type} {b : Bound ω κ} {name : String} {format : List Char}

theorem Reads.mem {r : Except (Failure ω) Value} (h : b.Reads added o data name format r) :
    name ∈ b.template.names := by
  obtain ⟨path, hlooks, -⟩ := h
  exact hlooks.mem

/-- A placeholder is looked up in one way. -/
theorem Reads.unique {format' : List Char} {r r' : Except (Failure ω) Value}
    (h : b.Reads added o data name format r) (h' : b.Reads added o data name format' r') :
    format = format' ∧ r = r' := by
  obtain ⟨path, hlooks, rfl⟩ := h
  obtain ⟨path', hlooks', rfl⟩ := h'
  obtain ⟨rfl, rfl⟩ := Prod.mk.inj (Option.some.inj
    ((looks_iff.1 hlooks).2.1.symm.trans (looks_iff.1 hlooks').2.1))
  exact ⟨rfl, rfl⟩

end Reads

theorem Reads.of_same_slots {κ : Type} {t : Template ω} {bindings bindings' : List (Option κ)}
    {name : String} {format : List Char} {r : Except (Failure ω) Value}
    (hsame : ∀ s, t.nameAt s = some name → bindings'[s]? = bindings[s]?)
    (h : Reads added o data ⟨t, bindings⟩ name format r) :
    Reads added o data ⟨t, bindings'⟩ name format r := by
  obtain ⟨path, ⟨hmem, hmarked, hfree⟩, hpath⟩ := h
  refine ⟨path, ⟨hmem, hmarked, hfree.imp_right fun hfree s hs c => ?_⟩, hpath⟩
  rw [show bindings'[s]? = bindings[s]? from hsame s hs]
  exact hfree s hs c

/-- What is read for a placeholder depends on its own slots only. -/
theorem reads_congr {κ : Type} {t : Template ω} {bindings bindings' : List (Option κ)}
    {name : String} (hsame : ∀ s, t.nameAt s = some name → bindings'[s]? = bindings[s]?)
    {format : List Char} {r : Except (Failure ω) Value} :
    Reads added o data ⟨t, bindings'⟩ name format r ↔
      Reads added o data ⟨t, bindings⟩ name format r :=
  ⟨.of_same_slots fun s hs => (hsame s hs).symm, .of_same_slots hsame⟩

/-! ### What filling does to the slots -/

variable [Wrapping ω (Content ω ρ)] {t : Template ω}

/-- What filling the placeholders of some names does to the slots, and which of them it misses. -/
structure Fills (added : List Adapter) (o : FillOptions) (data : Value) (t : Template ω)
    (bindings : List (Option (Content ω ρ))) (names missed : List String)
    (bindings' : List (Option (Content ω ρ))) : Prop where
  /-- There are as many slots as before. -/
  length : bindings'.length = bindings.length
  /-- Every path that is looked up fits the data. -/
  fits : ∀ n ∈ names, ∀ format e, ¬ Reads added o data ⟨t, bindings⟩ n format (.error e)
  /-- A name is missed once. -/
  nodup : missed.Nodup
  /-- Those are missed whose path leads to no value. -/
  mem_missed : ∀ n, n ∈ missed ↔
    n ∈ names ∧ ∃ format, Reads added o data ⟨t, bindings⟩ n format (.ok .none)
  /-- The slots of a placeholder that has a value hold this. -/
  bound : ∀ n ∈ names, ∀ s format v, t.nameAt s = some n →
    Reads added o data ⟨t, bindings⟩ n format (.ok v) → v ≠ .none →
    bindings'[s]? = some (some (Wrapping.under (t.wrapAt s) (.ofValue format v)))
  /-- The other slots keep what they had. -/
  kept : ∀ s, (∀ n ∈ names, ∀ format v, t.nameAt s = some n →
    Reads added o data ⟨t, bindings⟩ n format (.ok v) → v = .none) → bindings'[s]? = bindings[s]?

namespace Fills

variable {bindings bindings₁ bindings₂ : List (Option (Content ω ρ))}
  {names₁ names₂ missed₁ missed₂ : List String}

/-- Nothing is to be done for no names. -/
theorem nil : Fills added o data t bindings [] [] bindings where
  length := rfl
  fits _ hn := by cases hn
  nodup := .nil
  mem_missed n := by simp
  bound _ hn := by cases hn
  kept _ _ := rfl

/-- The slots of a name without a value are kept. -/
theorem kept_of_name (h : Fills added o data t bindings names₁ missed₁ bindings₁) {n : String}
    {s : Nat} (hs : t.nameAt s = some n) (hnone : n ∈ names₁ → ∀ format v,
      Reads added o data ⟨t, bindings⟩ n format (.ok v) → v = .none) :
    bindings₁[s]? = bindings[s]? := by
  refine h.kept s fun n' hn' format v hs' hread => ?_
  cases hs.symm.trans hs'
  exact hnone hn' format v hread

/-- The slots of another name are kept. -/
theorem same_slots (h : Fills added o data t bindings names₁ missed₁ bindings₁) {n : String}
    (hn : n ∉ names₁) {s : Nat} (hs : t.nameAt s = some n) : bindings₁[s]? = bindings[s]? :=
  h.kept_of_name hs fun hn' => absurd hn' hn

/-- **Filling some names and then others.** -/
theorem trans (h₁ : Fills added o data t bindings names₁ missed₁ bindings₁)
    (h₂ : Fills added o data t bindings₁ names₂ missed₂ bindings₂)
    (hdisjoint : ∀ n ∈ names₁, n ∉ names₂) :
    Fills added o data t bindings (names₁ ++ names₂) (missed₁ ++ missed₂) bindings₂ := by
  -- what is read for the other names is as it was, since their slots are
  have hreads {n : String} (hn : n ∈ names₂) (format : List Char)
      (r : Except (Failure ω) Value) : Reads added o data ⟨t, bindings₁⟩ n format r ↔
        Reads added o data ⟨t, bindings⟩ n format r :=
    reads_congr fun s hs => h₁.same_slots (fun hn' => hdisjoint n hn' hn) hs
  refine ⟨h₂.length.trans h₁.length, fun n hn format e => ?_, ?_, fun n => ?_,
    fun n hn s format v hs hread hv => ?_, fun s hnone => ?_⟩
  · rcases List.mem_append.1 hn with hn | hn
    · exact h₁.fits n hn format e
    · rw [← hreads hn]
      exact h₂.fits n hn format e
  · refine List.nodup_append.2 ⟨h₁.nodup, h₂.nodup, fun n hn n' hn' heq => ?_⟩
    subst heq
    exact hdisjoint n ((h₁.mem_missed n).1 hn).1 ((h₂.mem_missed n).1 hn').1
  · rw [List.mem_append, h₁.mem_missed, h₂.mem_missed, List.mem_append, or_and_right]
    exact or_congr_right (and_congr_right fun hn => exists_congr fun format => hreads hn format _)
  · rcases List.mem_append.1 hn with hn | hn
    · rw [h₂.same_slots (hdisjoint n hn) hs]
      exact h₁.bound n hn s format v hs hread hv
    · exact h₂.bound n hn s format v hs ((hreads hn _ _).2 hread) hv
  · rw [h₂.kept s fun n hn format v hs hread => hnone n (List.mem_append_right _ hn) format v hs
        ((hreads hn _ _).1 hread)]
    exact h₁.kept s fun n hn => hnone n (List.mem_append_left _ hn)

/-- What has to be shown for a single name. -/
theorem single {n : String} (hlen : bindings₁.length = bindings.length)
    (hfits : ∀ format e, ¬ Reads added o data ⟨t, bindings⟩ n format (.error e))
    (hnodup : missed₁.Nodup) (hmissed : ∀ m, m ∈ missed₁ ↔
      m = n ∧ ∃ format, Reads added o data ⟨t, bindings⟩ n format (.ok .none))
    (hbound : ∀ s format v, t.nameAt s = some n →
      Reads added o data ⟨t, bindings⟩ n format (.ok v) → v ≠ .none →
      bindings₁[s]? = some (some (Wrapping.under (t.wrapAt s) (.ofValue format v))))
    (hkept : ∀ s, (∀ format v, t.nameAt s = some n →
      Reads added o data ⟨t, bindings⟩ n format (.ok v) → v = .none) →
      bindings₁[s]? = bindings[s]?) :
    Fills added o data t bindings [n] missed₁ bindings₁ where
  length := hlen
  fits := List.forall_mem_singleton.2 hfits
  nodup := hnodup
  mem_missed m := by
    rw [hmissed, List.mem_singleton]
    exact and_congr_right fun hm => by rw [hm]
  bound := List.forall_mem_singleton.2 hbound
  kept s hnone := hkept s (List.forall_mem_singleton.1 hnone)

/-- A placeholder that is not looked up is left alone. -/
theorem unread {n : String} (h : ∀ format r, ¬ Reads added o data ⟨t, bindings⟩ n format r) :
    Fills added o data t bindings [n] [] bindings := by
  refine single rfl (fun format e => h format _) .nil (fun m => iff_of_false List.not_mem_nil ?_)
    (fun s format v _ hread => absurd hread (h format _)) (fun _ _ => rfl)
  rintro ⟨-, format, hread⟩
  exact h format _ hread

/-- A placeholder without a value is missed. -/
theorem miss {n : String} {format : List Char}
    (h : Reads added o data ⟨t, bindings⟩ n format (.ok .none)) :
    Fills added o data t bindings [n] [n] bindings := by
  refine single rfl (fun format' e hread => ?_) (List.pairwise_singleton _ n) (fun m => ?_)
    (fun s format' v _ hread hv => ?_) (fun _ _ => rfl)
  · cases (h.unique hread).2
  · rw [List.mem_singleton]
    exact (and_iff_left ⟨format, h⟩).symm
  · cases (h.unique hread).2
    exact absurd rfl hv

/-- The slots of a placeholder with a value get it. -/
theorem value {n : String} {format : List Char} {v : Value}
    (h : Reads added o data ⟨t, bindings⟩ n format (.ok v)) (hv : v ≠ .none)
    (hlen : bindings₁.length = bindings.length) (hat : ∀ s, bindings₁[s]? =
      if t.nameAt s = some n then some (some (Wrapping.under (t.wrapAt s) (.ofValue format v)))
      else bindings[s]?) :
    Fills added o data t bindings [n] [] bindings₁ := by
  refine single hlen (fun format' e hread => ?_) .nil (fun m => iff_of_false List.not_mem_nil ?_)
    (fun s format' v' hs hread _ => ?_) (fun s hnone => ?_)
  · cases (h.unique hread).2
  · rintro ⟨-, format', hread⟩
    cases (h.unique hread).2
    exact hv rfl
  · obtain ⟨rfl, hvalue⟩ := h.unique hread
    cases hvalue
    rw [hat, if_pos hs]
  · rw [hat, if_neg fun hs => hv (hnone format v hs h)]

end Fills

/-! ### One placeholder -/

section Skipping

omit [DigitLimit] [Wrapping ω (Content ω ρ)]

theorem isBound_ofNat {b : Bound ω (Content ω ρ)} {slot : Nat} (h : slot < b.bindings.length) :
    b.isBound slot = .ok b.bindings[slot].isSome := by
  have hposition : position? b.bindings.length (slot : Int) = some slot := position?_ofNat h
  rw [isBound, bindingAt, hposition, Option.bind_some, List.getElem?_eq_getElem h]
  rfl

/-- Slots that the template has can be asked whether one of them has content. -/
theorem anyBound_ok {b : Bound ω (Content ω ρ)} : ∀ {slots : List Nat},
    (∀ s ∈ slots, s < b.bindings.length) →
    ∃ r, b.anyBound slots = .ok r ∧
      (r = true ↔ ∃ s ∈ slots, ∃ c, b.bindings[s]? = some (some c)) := by
  intro slots
  induction slots with
  | nil => exact fun _ => ⟨false, rfl, by simp⟩
  | cons slot rest ih =>
    intro hlt
    have hslot := hlt slot List.mem_cons_self
    have hget := List.getElem?_eq_getElem hslot
    rw [anyBound, isBound_ofNat hslot]
    cases hbound : b.bindings[slot] with
    | some c =>
      rw [hbound] at hget
      exact ⟨true, rfl, iff_of_true rfl ⟨slot, List.mem_cons_self, c, hget⟩⟩
    | none =>
      rw [hbound] at hget
      obtain ⟨r, hrest, hr⟩ := ih fun s hs => hlt s (List.mem_cons_of_mem _ hs)
      refine ⟨r, hrest, hr.trans ?_⟩
      simp [hget]

/-- A placeholder is left alone just if it must not be overwritten and has something bound. -/
theorem isSkipped_ok (h : t.WellFormed) {name : String} {slots : List Nat}
    (hl : t.table.lookup name = some slots) {bindings : List (Option (Content ω ρ))}
    (hlen : bindings.length = t.slotCount) :
    ∃ r, isSkipped o slots ⟨t, bindings⟩ = .ok r ∧ (r = false ↔
      o.overwrite = true ∨ ∀ s, t.nameAt s = some name → ∀ c, bindings[s]? ≠ some (some c)) := by
  rw [isSkipped]
  cases o.overwrite with
  | true => exact ⟨false, rfl, iff_of_true rfl (.inl rfl)⟩
  | false =>
    have hmem := h.lists.mem_iff_of_lookup hl
    have hlt : ∀ s ∈ slots, s < bindings.length := by
      rw [hlen]
      exact fun _ => h.lt_slotCount_of_lookup hl
    obtain ⟨r, hrun, hr⟩ := anyBound_ok (b := ⟨t, bindings⟩) hlt
    refine ⟨r, hrun, ?_⟩
    rw [← Bool.not_eq_true, hr]
    simp [hmem]

end Skipping

/-- **One placeholder of the table** is filled, or counted as missed, or left alone; or its path
does not fit the data. -/
theorem fillTable_cons (h : t.WellFormed) {name : String} {slots : List Nat}
    (hl : t.table.lookup name = some slots) (rest : SlotTable) (count : Nat)
    {bindings : List (Option (Content ω ρ))} (hlen : bindings.length = t.slotCount) :
    (∃ bindings' missed, fillTable added o data ((name, slots) :: rest) count ⟨t, bindings⟩ =
        fillTable added o data rest (count + missed.length) ⟨t, bindings'⟩ ∧
      Fills added o data t bindings [name] missed bindings') ∨
    ∃ format e, Reads added o data ⟨t, bindings⟩ name format (.error e) ∧
      fillTable added o data ((name, slots) :: rest) count ⟨t, bindings⟩ =
        (⟨t, bindings⟩, .error e) := by
  have hname : name ∈ t.names := SlotTable.mem_names_of_lookup hl
  obtain ⟨skipped, hskipped, hfree⟩ := isSkipped_ok (o := o) h hl hlen
  rw [fillTable]
  cases hspec : spec? o.marker name with
  | none =>
    refine .inl ⟨bindings, [], rfl, .unread ?_⟩
    rintro format r ⟨path, hlooks, -⟩
    rw [looks_iff, hspec] at hlooks
    cases hlooks.2.1
  | some spec =>
    dsimp only
    rw [hskipped]
    cases skipped with
    | true =>
      refine .inl ⟨bindings, [], rfl, .unread ?_⟩
      rintro format r ⟨path, hlooks, -⟩
      cases hfree.2 hlooks.free
    | false =>
      have hreads {r : Except (Failure ω) Value} (hr : Path.resolve added o.separator
          (String.ofList (Path.splitSpec spec).2) data = r) :
          Reads added o data ⟨t, bindings⟩ name (Path.splitSpec spec).1 r :=
        ⟨_, looks_iff.2 ⟨hname, by rw [hspec]; rfl, hfree.1 rfl⟩, hr⟩
      dsimp only
      rw [fillOne]
      dsimp only
      cases hr : (Path.resolve added o.separator (String.ofList (Path.splitSpec spec).2) data :
          Except (Failure ω) Value) with
      | error e => exact .inr ⟨_, e, hreads hr, rfl⟩
      | ok v =>
        by_cases hv : v = .none
        · subst hv
          exact .inl ⟨bindings, [name], rfl, .miss (hreads hr)⟩
        · obtain ⟨bindings', hrun, hlen', hat⟩ :=
            bindSlots_ok h hl (Content.ofValue (Path.splitSpec spec).1 v) hlen
          refine .inl ⟨bindings', [], ?_, .value (hreads hr) hv (hlen'.trans hlen.symm) hat⟩
          dsimp only
          rw [if_pos (Value.isSome_iff.2 hv), hrun]
          rfl

/-! ### All placeholders -/

/-- **Filling from a table** fills the placeholders of it, or stops at a path that does not fit the
data. -/
theorem fillTable_run (h : t.WellFormed) : ∀ (entries : SlotTable) (count : Nat)
    (bindings : List (Option (Content ω ρ))), bindings.length = t.slotCount →
    (∀ e ∈ entries, e ∈ t.table) → entries.names.Nodup →
    (∃ bindings' missed, fillTable added o data entries count ⟨t, bindings⟩ =
        (⟨t, bindings'⟩, .ok (count + missed.length)) ∧
      Fills added o data t bindings entries.names missed bindings') ∨
    ∃ n ∈ entries.names, ∃ format e b', Reads added o data ⟨t, bindings⟩ n format (.error e) ∧
      fillTable added o data entries count ⟨t, bindings⟩ = (b', .error e) := by
  intro entries
  induction entries with
  | nil => exact fun count bindings _ _ _ => .inl ⟨bindings, [], rfl, .nil⟩
  | cons entry rest ih =>
    obtain ⟨name, slots⟩ := entry
    intro count bindings hlen hsub hnodup
    have hl := lookup_eq_some_of_mem h.lists.nodup (hsub _ List.mem_cons_self)
    obtain ⟨hnot, hnodup⟩ := List.nodup_cons.1 hnodup
    rcases fillTable_cons h hl rest count hlen with ⟨bindings₁, missed₁, hcons, hfills₁⟩ |
      ⟨format, e, hread, hcons⟩
    · rcases ih (count + missed₁.length) bindings₁ (hfills₁.length.trans hlen)
        (fun e he => hsub e (List.mem_cons_of_mem _ he)) hnodup with
        ⟨bindings', missed, hrest, hfills⟩ | ⟨n, hn, format, e, b', hread, hrest⟩
      · refine .inl ⟨bindings', missed₁ ++ missed, ?_, hfills₁.trans hfills ?_⟩
        · rw [hcons, hrest, List.length_append, Nat.add_assoc]
        · intro n hn
          rwa [List.mem_singleton.1 hn]
      · refine .inr ⟨n, List.mem_cons_of_mem _ hn, format, e, b', ?_, hcons.trans hrest⟩
        -- it is read for the later name as it would have been at the start
        have hne : n ∉ [name] := fun hmem => hnot (List.mem_singleton.1 hmem ▸ hn)
        exact (reads_congr fun s hs => hfills₁.same_slots hne hs).1 hread
    · exact .inr ⟨name, List.mem_cons_self, format, e, _, hread, hcons⟩

/-- Filling fills all placeholders, or stops at a path that does not fit the data. -/
theorem fill_run (h : t.WellFormed) {bindings : List (Option (Content ω ρ))}
    (hlen : bindings.length = t.slotCount) (added : List Adapter) (o : FillOptions) (data : Value) :
    (∃ bindings' missed, fill ⟨t, bindings⟩ added o data = (⟨t, bindings'⟩, .ok missed.length) ∧
      Fills added o data t bindings t.names missed bindings') ∨
    ∃ n ∈ t.names, ∃ format e b', Reads added o data ⟨t, bindings⟩ n format (.error e) ∧
      fill ⟨t, bindings⟩ added o data = (b', .error e) := by
  rcases fillTable_run h t.table 0 bindings hlen (fun _ he => he) h.lists.nodup with
    ⟨bindings', missed, hrun, hfills⟩ | hfails
  · rw [Nat.zero_add] at hrun
    exact .inl ⟨bindings', missed, hrun, hfills⟩
  · exact .inr hfails

namespace Fills

variable {bindings bindings' bindings'' : List (Option (Content ω ρ))}
  {names missed missed' : List String}

/-- A slot holds the value of its placeholder, or what it had. -/
theorem slot_cases (h : Fills added o data t bindings names missed bindings') (s : Nat) :
    (∃ n ∈ names, ∃ format v, t.nameAt s = some n ∧
      Reads added o data ⟨t, bindings⟩ n format (.ok v) ∧ v ≠ .none ∧
      bindings'[s]? = some (some (Wrapping.under (t.wrapAt s) (.ofValue format v)))) ∨
    bindings'[s]? = bindings[s]? := by
  by_cases hnone : ∀ n ∈ names, ∀ format v, t.nameAt s = some n →
      Reads added o data ⟨t, bindings⟩ n format (.ok v) → v = .none
  · exact .inr (h.kept s hnone)
  · push Not at hnone
    obtain ⟨n, hn, format, v, hs, hread, hv⟩ := hnone
    exact .inl ⟨n, hn, format, v, hs, hread, hv, h.bound n hn s format v hs hread hv⟩

/-- No slot loses its content. -/
theorem stays_bound (h : Fills added o data t bindings names missed bindings') {s : Nat}
    {c : Content ω ρ} (hc : bindings[s]? = some (some c)) :
    ∃ c', bindings'[s]? = some (some c') := by
  rcases h.slot_cases s with ⟨n, -, format, v, -, -, -, hs⟩ | hs
  · exact ⟨_, hs⟩
  · exact ⟨c, hs.trans hc⟩

/-- Bound slots keep their content if nothing is overwritten. -/
theorem keeps_bound (h : Fills added o data t bindings names missed bindings')
    (ho : o.overwrite = false) {s : Nat} {c : Content ω ρ} (hc : bindings[s]? = some (some c)) :
    bindings'[s]? = some (some c) := by
  rw [← hc]
  refine h.kept s fun n _ format v hs ⟨path, hlooks, _⟩ => ?_
  rcases hlooks.free with hover | hfree
  · cases ho.symm.trans hover
  · exact absurd hc (hfree s hs c)

/-- What is looked up afterwards was looked up before. -/
theorem reads_before (h : Fills added o data t bindings names missed bindings') {n : String}
    {format : List Char} {r : Except (Failure ω) Value}
    (hread : Reads added o data ⟨t, bindings'⟩ n format r) :
    Reads added o data ⟨t, bindings⟩ n format r := by
  obtain ⟨path, ⟨hmem, hmarked, hfree⟩, hpath⟩ := hread
  refine ⟨path, ⟨hmem, hmarked, hfree.imp_right fun hfree s hs c hc => ?_⟩, hpath⟩
  obtain ⟨c', hc'⟩ := h.stays_bound hc
  exact hfree s hs c' hc'

/-- Placeholders without a value are missed again. -/
theorem reads_none_iff (h : Fills added o data t bindings names missed bindings') {n : String}
    {format : List Char} : Reads added o data ⟨t, bindings'⟩ n format (.ok .none) ↔
      Reads added o data ⟨t, bindings⟩ n format (.ok .none) := by
  refine ⟨h.reads_before, fun hread => (reads_congr fun s hs => h.kept_of_name hs ?_).2 hread⟩
  intro _ format' v hread'
  cases (hread.unique hread').2
  rfl

/-- **Filling again changes nothing** and misses the same. -/
theorem again (h : Fills added o data t bindings names missed bindings')
    (h' : Fills added o data t bindings' names missed' bindings'') :
    bindings'' = bindings' ∧ missed'.length = missed.length := by
  constructor
  · refine List.ext_getElem? fun s => ?_
    rcases h'.slot_cases s with ⟨n, hn, format, v, hs, hread, hv, hat⟩ | hat
    -- the slot gets a value now, which was there for it before, too
    · rw [hat, h.bound n hn s format v hs (h.reads_before hread) hv]
    · exact hat
  · refine ((List.perm_ext_iff_of_nodup h'.nodup h.nodup).2 fun n => ?_).length_eq
    rw [h'.mem_missed, h.mem_missed]
    exact and_congr_right fun _ => exists_congr fun format => h.reads_none_iff

end Fills

/-- **What filling does.**  A bound template with a produced template, which has not grown since,
can be filled just if every path that is looked up fits the data; looked up are the placeholders
that start with the marker, and that may be overwritten or have nothing bound.  The result is the
number of those whose path leads to no value.  The slots of the others hold the value, in the format
that the name tells, each under its wrap; all other slots keep what they had.  So no slot with
content changes if nothing is to be overwritten; and filling again changes nothing and has the same
result. -/
theorem fill_exact {b : Bound ω (Content ω ρ)} (h : b.template.IsProduced)
    (hlen : b.bindings.length = b.template.slotCount) (added : List Adapter) (o : FillOptions)
    (data : Value) :
    ((∃ b' count, b.fill added o data = (b', .ok count)) ↔
      ∀ name format e, ¬ b.Reads added o data name format (.error e)) ∧
    ∀ b' count, b.fill added o data = (b', .ok count) →
      (∃ missed : List String, missed.Nodup ∧ missed.length = count ∧
        ∀ name, name ∈ missed ↔ ∃ format, b.Reads added o data name format (.ok .none)) ∧
      b'.template = b.template ∧ b'.bindings.length = b.bindings.length ∧
      (∀ s name format v, b.template.nameAt s = some name →
        b.Reads added o data name format (.ok v) → v ≠ .none → b'.bindings[s]? =
          some (some (Wrapping.under (b.template.wrapAt s) (.ofValue format v)))) ∧
      (∀ s, (∀ name format v, b.template.nameAt s = some name →
        b.Reads added o data name format (.ok v) → v = .none) →
          b'.bindings[s]? = b.bindings[s]?) ∧
      (o.overwrite = false → ∀ (s : Nat) (c : Content ω ρ), b.bindings[s]? = some (some c) →
        b'.bindings[s]? = some (some c)) ∧
      b'.fill added o data = (b', .ok count) := by
  obtain ⟨t, bindings⟩ := b
  have hwf : t.WellFormed := h.isBuilt.wellFormed
  rcases fill_run hwf hlen added o data with
    ⟨bindings', missed, hrun, hfills⟩ | ⟨name, -, format, e, b', hread, hrun⟩
  · refine ⟨iff_of_true ⟨_, _, hrun⟩ fun name format e hread =>
      hfills.fits name hread.mem format e hread, ?_⟩
    intro b' count hrun'
    obtain ⟨rfl, hcount⟩ := Prod.mk.inj (hrun.symm.trans hrun')
    cases hcount
    refine ⟨⟨missed, hfills.nodup, rfl, fun name => ?_⟩, rfl, hfills.length,
      fun s name format v hs hread hv => hfills.bound name hread.mem s format v hs hread hv,
      fun s hnone => hfills.kept s fun name _ => hnone name,
      fun ho s c hc => hfills.keeps_bound ho hc, ?_⟩
    · rw [hfills.mem_missed]
      exact and_iff_right_of_imp fun ⟨_, hread⟩ => hread.mem
    · rcases fill_run hwf (hfills.length.trans hlen) added o data with
        ⟨bindings'', missed', hagain, hfills'⟩ | ⟨name, -, format, e, b', hread, -⟩
      · obtain ⟨hsame, hcount⟩ := hfills.again hfills'
        rw [hagain, hsame, hcount]
      · have hread' := hfills.reads_before hread
        exact absurd hread' (hfills.fits name hread'.mem format e)
  · refine ⟨iff_of_false ?_ fun hfits => hfits name format e hread, ?_⟩
    · rintro ⟨b'', count, hrun'⟩
      cases hrun.symm.trans hrun'
    · intro b'' count hrun'
      cases hrun.symm.trans hrun'

end Data

/-- One placeholder with the marker has content and keeps it, one has a value at two slots, one of
them under a wrap, one has a value in a format, and one has none; filling again changes nothing. -/
theorem fill_exact_halfBound :
    let t : Template (Wrap Empty) := (Template.blank "page").edits
      [.addPlaceholder "$name" none, .addPlaceholder "$old" none,
        .addPlaceholder "$name" (some .html), .addPlaceholder "$%03d n" none,
        .addPlaceholder "$gone" none]
    let b : Bound (Wrap Empty) (Tree (Wrap Empty)) := ((fresh t).bindName "$old" (.data [97])).1
    let o : FillOptions := ⟨false, "$", "."⟩
    let data : Value := .map [(.str "name", .str "<p>"), (.str "old", .int 1), (.str "n", .int 7)]
    let r := b.fill [] o data
    r.2 = .ok 1 ∧ r.1.bindings[0]? = some (some (.print (.str "<p>") .standard)) ∧
      r.1.bindings[1]? = some (some (.data [97])) ∧
      r.1.bindings[2]? =
        some (some (.escaper Escape.html .standard (.print (.str "<p>") .standard))) ∧
      r.1.bindings[3]? = some (some (.format "%03d" [.int 7] .standard)) ∧
      r.1.fill [] o data = r := by
  intro t b o data r
  have h : b.template.IsProduced := Template.IsProduced.edits _ (.blank "page")
  have hlen : b.bindings.length = b.template.slotCount := by decide +kernel
  have hrun : b.fill [] o data = (r.1, .ok 1) := by
    have hcount : r.2.toOption = some 1 := by decide +kernel
    rcases hr : r with ⟨b', e | count⟩
    · rw [hr] at hcount
      cases hcount
    · rw [hr] at hcount
      cases hcount
      exact hr
  obtain ⟨-, -, -, hvalue, -, hbound, hagain⟩ := (fill_exact h hlen [] o data).2 r.1 1 hrun
  have hfree {name : String} {slots : List Nat} (hl : t.table.lookup name = some slots)
      (hnone : ∀ s ∈ slots, (b.bindings[s]?.join).isSome = false) (s : Nat)
      (hs : t.nameAt s = some name) (c : Tree (Wrap Empty)) : b.bindings[s]? ≠ some (some c) := by
    intro hc
    have hempty := hnone s ((h.isBuilt.wellFormed.lists.mem_iff_of_lookup hl s).1 hs)
    rw [hc] at hempty
    cases hempty
  have hpath : (Path.resolve [] "." "name" data : Except (Failure (Wrap Empty)) Value) =
      .ok (.str "<p>") := rfl
  have hpath' : (Path.resolve [] "." "n" data : Except (Failure (Wrap Empty)) Value) =
      .ok (.int 7) := rfl
  have hname : b.Reads [] o data "$name" [] (.ok (.str "<p>")) :=
    have hslots : t.table.lookup "$name" = some [0, 2] := by decide +kernel
    ⟨['n', 'a', 'm', 'e'], ⟨by decide +kernel, ⟨_, by decide +kernel, .plain (by decide)⟩,
      .inr (hfree hslots (by decide +kernel))⟩, hpath⟩
  have hn : b.Reads [] o data "$%03d n" "%03d".toList (.ok (.int 7)) :=
    have hslots : t.table.lookup "$%03d n" = some [3] := by decide +kernel
    ⟨['n'], ⟨by decide +kernel, ⟨_, by decide +kernel, .formatted ['n'] (by decide) (by decide)⟩,
      .inr (hfree hslots (by decide +kernel))⟩, hpath'⟩
  exact ⟨congrArg Prod.snd hrun, hvalue 0 "$name" _ _ (by decide +kernel) hname (by simp),
    hbound rfl 1 _ rfl, hvalue 2 "$name" _ _ (by decide +kernel) hname (by simp),
    hvalue 3 "$%03d n" _ _ (by decide +kernel) hn (by simp), hagain.trans hrun.symm⟩

end Bound
end Stencil
