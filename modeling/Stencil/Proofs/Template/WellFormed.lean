import Stencil.Proofs.Template.SlotTable

/-!
# Well-formed templates

A template says several times what stands where: in its fragments, in the names at its slots, in its
slot table and in its wraps.  A template is well-formed if these agree.  Every operation keeps that:
building adds fragments only behind a named slot and names only behind all others, and renaming
changes the names at the slots and the table in the same way.

## Main definitions

* `Template.WellFormed` — the parts of a template agree.
* `Template.withRoom` — the template with its last slot free.

## Main results

* `Template.WellFormed.addStatic`, `Template.WellFormed.addPlaceholder`,
  `Template.WellFormed.setWrap`, `Template.WellFormed.rename`, `Template.WellFormed.transform` —
  every operation keeps templates well-formed.
-/

namespace Stencil
namespace Template

variable {ω : Type}

/-- The parts of a template agree. -/
structure WellFormed (t : Template ω) : Prop where
  /-- The table has the names at the slots, each with its slots in ascending order. -/
  lists : t.table.Lists t.nameAt
  /-- A name is at one of the template's slots. -/
  inRange : ∀ s, (t.nameAt s).isSome → s ≤ t.fragments.length
  /-- A slot between two fragments has a name. -/
  interior : ∀ s, 0 < s → s < t.fragments.length → (t.nameAt s).isSome
  /-- A slot with a wrap has a name. -/
  wrapped : ∀ s, (t.wrapAt s).isSome → (t.nameAt s).isSome
  /-- The last of the slots that are kept track of has a name. -/
  lastNamed : t.slotNames.getLast? ≠ some none

/-- The template with room for a placeholder at its end: behind an empty fragment, if it ends in
one. -/
def withRoom (t : Template ω) : Template ω := if t.endsNamed then t.addStatic [] else t

/-- A placeholder with a name is put where there is room for it; one without a name is refused. -/
theorem addPlaceholder_eq_ok_iff {t t' : Template ω} {name : String} {wrap : Option ω} :
    t.addPlaceholder name wrap = .ok t' ↔ name ≠ "" ∧ t' = t.withRoom.nameLast name wrap := by
  unfold addPlaceholder
  by_cases hname : name = ""
  · rw [if_pos (String.isEmpty_iff.2 hname)]
    exact iff_of_false (fun h => by cases h) fun h => h.1 hname
  · rw [if_neg (mt String.isEmpty_iff.1 hname), Except.ok.injEq, and_iff_right hname]
    exact eq_comm

theorem wellFormed_blank (name : String) : (blank name : Template ω).WellFormed where
  lists := SlotTable.Lists.nil (fun _ => rfl)
  inRange s h := by cases h
  interior s h h' := by simp at h'
  wrapped s h := by cases h
  lastNamed := by simp [blank]

/-! ### What the operations do to the parts -/

@[simp] theorem slotNames_addStatic (t : Template ω) (data : Bytes) :
    (t.addStatic data).slotNames = t.slotNames := by
  unfold addStatic; split <;> (try split) <;> rfl

@[simp] theorem wraps_addStatic (t : Template ω) (data : Bytes) :
    (t.addStatic data).wraps = t.wraps := by
  unfold addStatic; split <;> (try split) <;> rfl

@[simp] theorem nameAt_addStatic (t : Template ω) (data : Bytes) (s : Nat) :
    (t.addStatic data).nameAt s = t.nameAt s := by
  rw [nameAt, slotNames_addStatic]; rfl

@[simp] theorem wrapAt_addStatic (t : Template ω) (data : Bytes) (s : Nat) :
    (t.addStatic data).wrapAt s = t.wrapAt s := by
  rw [wrapAt, wraps_addStatic]; rfl

@[simp] theorem table_withRoom (t : Template ω) : t.withRoom.table = t.table := by
  unfold withRoom
  split
  · exact table_addStatic t []
  · rfl

@[simp] theorem wraps_withRoom (t : Template ω) : t.withRoom.wraps = t.wraps := by
  unfold withRoom
  split
  · exact wraps_addStatic t []
  · rfl

@[simp] theorem name_withRoom (t : Template ω) : t.withRoom.name = t.name := by
  unfold withRoom
  split
  · exact name_addStatic t []
  · rfl

theorem length_appendToLast (data : Bytes) (fragments : List Bytes) :
    (appendToLast data fragments).length = max 1 fragments.length := by
  induction fragments with
  | nil => rfl
  | cons f rest ih =>
    cases rest with
    | nil => rfl
    | cons g rest =>
      rw [appendToLast, List.length_cons, ih]
      simp only [List.length_cons]
      omega

/-- Behind a placeholder a new fragment starts. -/
theorem fragments_addStatic_of_endsNamed {t : Template ω} (h : t.endsNamed) (data : Bytes) :
    (t.addStatic data).fragments = t.fragments ++ [data] := by
  rw [addStatic, if_pos h]

theorem fragments_addStatic_of_not_endsNamed {t : Template ω} (h : ¬ t.endsNamed) (data : Bytes) :
    (t.addStatic data).fragments
      = if data.isEmpty then t.fragments else appendToLast data t.fragments := by
  rw [addStatic, if_neg h]
  split <;> rfl

@[simp] theorem fragments_nameLast (t : Template ω) (name : String) (wrap : Option ω) :
    (t.nameLast name wrap).fragments = t.fragments := rfl

theorem nameAt_nameLast {t : Template ω} (h : t.slotNames.length ≤ t.fragments.length)
    (name : String) (wrap : Option ω) (s : Nat) :
    (t.nameLast name wrap).nameAt s = if s = t.fragments.length then some name else t.nameAt s := by
  -- up to the new slot the names are padded with slots that have none
  have hpad : (t.slotNames ++ List.replicate (t.fragments.length - t.slotNames.length) none).length
      = t.fragments.length := by
    rw [List.length_append, List.length_replicate]
    omega
  unfold nameAt nameLast
  rcases Nat.lt_trichotomy s t.fragments.length with hs | hs | hs
  · rw [if_neg (by omega), List.getElem?_append_left (by omega)]
    rcases Nat.lt_or_ge s t.slotNames.length with hlt | hge
    · rw [List.getElem?_append_left hlt]
    · rw [List.getElem?_append_right hge, List.getElem?_eq_none hge, List.getElem?_replicate]
      split <;> rfl
  · rw [if_pos hs, List.getElem?_append_right (by omega), hpad, hs, Nat.sub_self]
    rfl
  · rw [if_neg (by omega), List.getElem?_eq_none (by rw [List.length_append, hpad]; exact hs),
      List.getElem?_eq_none (by omega)]

theorem wrapAt_nameLast {t : Template ω} (name : String) (wrap : Option ω)
    (h : t.wrapAt t.fragments.length = none) (s : Nat) :
    (t.nameLast name wrap).wrapAt s = if s = t.fragments.length then wrap else t.wrapAt s := by
  cases wrap with
  | none =>
    split
    · next hs => rw [hs]; exact h
    · rfl
  | some w =>
    simp only [wrapAt, nameLast]
    rw [lookup_cons_ite, lookup_filter_ne]
    split <;> rfl

theorem lookup_withWrap (wraps : List (Nat × ω)) (wrap : Option ω) (slot s : Nat) :
    (withWrap wraps wrap slot).lookup s = if s = slot then wrap else wraps.lookup s := by
  cases wrap with
  | none => exact lookup_filter_ne s slot wraps
  | some w =>
    rw [withWrap, lookup_cons_ite, lookup_filter_ne]
    split <;> rfl

theorem lookup_foldl_withWrap (wrap : Option ω) (s : Nat) :
    ∀ (slots : List Nat) (wraps : List (Nat × ω)),
      (slots.foldl (fun ws slot => withWrap ws wrap slot) wraps).lookup s
        = if s ∈ slots then wrap else wraps.lookup s := by
  intro slots
  induction slots with
  | nil => intro wraps; simp
  | cons slot slots ih =>
    intro wraps
    rw [List.foldl_cons, ih, lookup_withWrap]
    by_cases h : s ∈ slots
    · rw [if_pos h, if_pos (List.mem_cons_of_mem _ h)]
    · by_cases h' : s = slot
      · rw [if_neg h, if_pos h', if_pos (h' ▸ List.mem_cons_self)]
      · rw [if_neg h, if_neg h', if_neg (by simp [h, h'])]

namespace WellFormed

variable {t t' : Template ω}

/-- A slot with a name is one of the template. -/
theorem lt_slotCount (h : t.WellFormed) {s : Nat} {name : String} (hs : t.nameAt s = some name) :
    s < t.slotCount := Nat.lt_succ_of_le (h.inRange s (by rw [hs]; rfl))

/-- So are the slots that the table lists. -/
theorem lt_slotCount_of_lookup (h : t.WellFormed) {name : String} {slots : List Nat}
    (hl : t.table.lookup name = some slots) {s : Nat} (hs : s ∈ slots) : s < t.slotCount :=
  h.lt_slotCount ((h.lists.mem_iff_of_lookup hl s).2 hs)

/-! ### Building -/

/-- A template that does not end in a placeholder keeps track of no slot behind its fragments. -/
theorem length_slotNames_le (h : t.WellFormed) (hend : ¬ t.endsNamed) :
    t.slotNames.length ≤ t.fragments.length := by
  cases hl : t.slotNames.getLast? with
  | none =>
    rw [List.getLast?_eq_none_iff.1 hl]
    exact Nat.zero_le _
  | some last =>
    cases last with
    | none => exact absurd hl h.lastNamed
    | some name =>
      -- the last slot kept track of has a name, so it is a slot of the template, but not its last
      have hlast : t.nameAt (t.slotNames.length - 1) = some name := by
        rw [List.getLast?_eq_getElem?] at hl
        rw [nameAt, hl]
        rfl
      have hle := h.inRange _ (by rw [hlast]; rfl)
      have hne : t.slotNames.length - 1 ≠ t.fragments.length := fun heq =>
        hend (by rw [endsNamed, ← heq, hlast]; rfl)
      omega

theorem nameAt_of_not_endsNamed (hend : ¬ t.endsNamed) : t.nameAt t.fragments.length = none := by
  rw [endsNamed] at hend
  simpa using hend

theorem nameAt_eq_none (h : t.WellFormed) {s : Nat} (hs : t.fragments.length < s) :
    t.nameAt s = none := by
  cases hn : t.nameAt s with
  | none => rfl
  | some name =>
    have := h.inRange s (by rw [hn]; rfl)
    omega

/-- No slot has an empty name if no placeholder has. -/
theorem nameAt_ne_empty (h : t.WellFormed) (hnames : ∀ n ∈ t.names, n ≠ "") (s : Nat) :
    t.nameAt s ≠ some "" := fun hs => hnames "" (h.lists.mem_names hs) rfl

theorem wrapAt_eq_none (h : t.WellFormed) {s : Nat} (hs : t.nameAt s = none) :
    t.wrapAt s = none := by
  cases hw : t.wrapAt s with
  | none => rfl
  | some w =>
    have := h.wrapped s (by rw [hw]; rfl)
    rw [hs] at this
    cases this

theorem addStatic (h : t.WellFormed) (data : Bytes) : (t.addStatic data).WellFormed where
  lists := by
    rw [table_addStatic]
    exact h.lists.congr (fun s => (nameAt_addStatic t data s).symm)
  inRange s hs := by
    rw [nameAt_addStatic] at hs
    have hs' := h.inRange s hs
    by_cases hend : t.endsNamed
    · rw [fragments_addStatic_of_endsNamed hend, List.length_append]
      omega
    · rw [fragments_addStatic_of_not_endsNamed hend]
      split
      · exact hs'
      · rw [length_appendToLast]
        omega
  interior s hpos hs := by
    rw [nameAt_addStatic]
    by_cases hend : t.endsNamed
    · rw [fragments_addStatic_of_endsNamed hend, List.length_append, List.length_singleton] at hs
      by_cases hlast : s = t.fragments.length
      · rw [hlast]
        exact hend
      · exact h.interior s hpos (by omega)
    · rw [fragments_addStatic_of_not_endsNamed hend] at hs
      split at hs
      · exact h.interior s hpos hs
      · rw [length_appendToLast] at hs
        exact h.interior s hpos (by omega)
  wrapped s hs := by
    rw [wrapAt_addStatic] at hs
    rw [nameAt_addStatic]
    exact h.wrapped s hs
  lastNamed := by
    rw [slotNames_addStatic]
    exact h.lastNamed

/-- An empty fragment behind a placeholder keeps the next one apart from it. -/
theorem not_endsNamed_addStatic (h : t.WellFormed) (hend : t.endsNamed) (data : Bytes) :
    ¬ (t.addStatic data).endsNamed := by
  have hlen : (t.addStatic data).fragments.length = t.fragments.length + 1 := by
    rw [fragments_addStatic_of_endsNamed hend, List.length_append, List.length_singleton]
  rw [endsNamed, nameAt_addStatic, hlen, h.nameAt_eq_none (Nat.lt_succ_self _)]
  simp

theorem withRoom (h : t.WellFormed) : t.withRoom.WellFormed := by
  unfold Template.withRoom
  split
  · exact h.addStatic []
  · exact h

theorem not_endsNamed_withRoom (h : t.WellFormed) : ¬ t.withRoom.endsNamed := by
  unfold Template.withRoom
  split
  · next hend => exact h.not_endsNamed_addStatic hend []
  · next hend => exact hend

theorem nameLast (h : t.WellFormed) (hend : ¬ t.endsNamed) (name : String) (wrap : Option ω) :
    (t.nameLast name wrap).WellFormed := by
  have hlen := h.length_slotNames_le hend
  have hfree := nameAt_of_not_endsNamed hend
  have hname := nameAt_nameLast hlen name wrap
  have hwrap := wrapAt_nameLast name wrap (h.wrapAt_eq_none hfree)
  constructor
  · refine (h.lists.push name t.fragments.length (fun s hs => ?_)).congr
      (fun s => (hname s).symm)
    have hne : s ≠ t.fragments.length := by
      rintro rfl
      rw [hfree] at hs
      cases hs
    have := h.inRange s hs
    omega
  · intro s hs
    rw [fragments_nameLast]
    rw [hname] at hs
    split at hs
    · omega
    · exact h.inRange s hs
  · intro s hpos hs
    rw [fragments_nameLast] at hs
    rw [hname, if_neg (by omega)]
    exact h.interior s hpos hs
  · intro s hs
    rw [hwrap] at hs
    rw [hname]
    split at hs
    · next heq => rw [if_pos heq]; rfl
    · next hne => rw [if_neg hne]; exact h.wrapped s hs
  · simp [Template.nameLast]

theorem addPlaceholder (h : t.WellFormed) {name : String} {wrap : Option ω}
    (ht : t.addPlaceholder name wrap = .ok t') : t'.WellFormed := by
  obtain ⟨-, rfl⟩ := addPlaceholder_eq_ok_iff.1 ht
  exact h.withRoom.nameLast h.not_endsNamed_withRoom name wrap

/-! ### Wraps and names -/

theorem slots?_eq_lookup (h : t.WellFormed) (name : String) :
    t.slots? name = t.table.lookup name := by
  unfold slots?
  split
  · next hl => exact hl.symm
  · next hne =>
    cases hl : t.table.lookup name with
    | none => rfl
    | some slots =>
      cases slots with
      | nil => exact absurd rfl (h.lists.nonempty hl)
      | cons s rest => exact absurd hl (hne s rest)

theorem setWrap (h : t.WellFormed) {name : String} {wrap : Option ω}
    (ht : t.setWrap? name wrap = some t') : t'.WellFormed := by
  obtain ⟨slots, hslots, rfl⟩ := Option.map_eq_some_iff.1 ht
  rw [h.slots?_eq_lookup] at hslots
  exact
    { lists := h.lists
      inRange := h.inRange
      interior := h.interior
      wrapped := by
        intro s hs
        rw [wrapAt, lookup_foldl_withWrap] at hs
        show (t.nameAt s).isSome
        split at hs
        · next hmem => rw [(h.lists.mem_iff_of_lookup hslots s).2 hmem]; rfl
        · exact h.wrapped s hs
      lastNamed := h.lastNamed }

/-- No name of a well-formed template has lost its slots. -/
theorem dropEmptied_eq (h : t.WellFormed) (name : String) : t.dropEmptied name = t := by
  unfold dropEmptied
  split
  · next hl => exact absurd rfl (h.lists.nonempty hl)
  · rfl

/-- The names at all slots are replaced in the same way as in the table. -/
theorem relabel (h : t.WellFormed) {g : Option String → Option String} (hnone : g none = none)
    (hsome : ∀ n, (g n).isSome = n.isSome) {table : SlotTable}
    (hlists : table.Lists (fun s => g (t.nameAt s))) :
    ({ t with slotNames := t.slotNames.map g, table } : Template ω).WellFormed := by
  have hname : ∀ s, ({ t with slotNames := t.slotNames.map g, table } : Template ω).nameAt s
      = g (t.nameAt s) := by
    intro s
    simp only [nameAt, List.getElem?_map]
    cases t.slotNames[s]? with
    | none => exact hnone.symm
    | some n => rfl
  constructor
  · exact hlists.congr (fun s => (hname s).symm)
  · intro s hs
    rw [hname, hsome] at hs
    exact h.inRange s hs
  · intro s hpos hs
    rw [hname, hsome]
    exact h.interior s hpos hs
  · intro s hs
    rw [hname, hsome]
    exact h.wrapped s hs
  · simp only [List.getLast?_map]
    intro hlast
    obtain ⟨n, hn, hg⟩ := Option.map_eq_some_iff.1 hlast
    cases n with
    | none => exact h.lastNamed hn
    | some n =>
      have := hsome (some n)
      rw [hg] at this
      cases this

theorem replaceName (h : t.WellFormed) {current new : String} (hcn : current ≠ new)
    {slots merged : List Nat} (hcurrent : t.table.lookup current = some slots) (others : List Nat)
    (hnew : (t.table.lookup new).getD [] = others) (hasc : merged.Pairwise (· < ·))
    (hmem : ∀ s, s ∈ merged ↔ s ∈ slots ∨ s ∈ others) :
    (t.replaceName current new merged).WellFormed := by
  refine h.relabel (g := fun n => if n = some current then some new else n) rfl ?_
    (h.lists.rename hcn hcurrent hnew hasc hmem)
  intro n
  split
  · next hn => rw [hn]; rfl
  · rfl

theorem rename (h : t.WellFormed) {current new : String} {merge : Bool}
    (ht : t.rename current new merge = .ok t') : t'.WellFormed := by
  unfold Template.rename at ht
  split at ht
  · cases ht
  · next slots hslots =>
    split at ht
    · cases ht
      exact h
    · next hcn =>
      split at ht
      · next hnew =>
        cases ht
        exact h.replaceName hcn hslots [] (by rw [hnew]; rfl) (h.lists.ascending hslots)
          (by simp)
      · next others hothers =>
        split at ht
        · cases ht
          refine h.replaceName hcn hslots others (by rw [hothers]; rfl) ?_
            (fun s => mem_mergeSlots)
          -- a slot has one name, so the two lists have none in common
          refine pairwise_mergeSlots (h.lists.ascending hslots) (h.lists.ascending hothers) ?_
          intro s hs hs'
          have hc := (h.lists.mem_iff_of_lookup hslots s).2 hs
          rw [(h.lists.mem_iff_of_lookup hothers s).2 hs'] at hc
          exact hcn (Option.some.inj hc).symm
        · cases ht

theorem transform (h : t.WellFormed) {f : String → Except Fault String} {merge : Bool}
    (ht : t.transform f merge = .ok t') : t'.WellFormed := by
  unfold Template.transform at ht
  split at ht
  · cases ht
  · next renames hrenames =>
    split at ht
    · cases ht
    · next table htable =>
      cases ht
      -- the renames go through the names of the table, each of them once
      have hkeys := SlotTable.map_fst_newNames h.lists.nonempty_of_mem hrenames
      have hknown : ∀ p ∈ renames, p.1 ∈ t.table.names := fun p hp => by
        rw [← hkeys]
        exact List.mem_map_of_mem (f := (·.1)) hp
      have hnodup : (([] ++ renames : List (String × String)).map (·.1)).Nodup := by
        rw [List.nil_append, hkeys]
        exact h.lists.nodup
      have hlists := h.lists.transformTable [] hnodup hknown
        (SlotTable.Lists.nil (fun s => by cases t.nameAt s <;> rfl)) htable
      refine h.relabel (g := fun n => n.map fun n => (renames.lookup n).getD n) rfl
        (fun n => Option.isSome_map) (hlists.congr (fun s => ?_))
      rw [List.nil_append]
      cases hn : t.nameAt s with
      | none => rfl
      | some n =>
        have hmem : n ∈ renames.map (·.1) := by
          rw [hkeys]
          exact h.lists.mem_names hn
        obtain ⟨new, hnew⟩ := exists_lookup_of_mem_keys hmem
        rw [Option.bind_some, Option.map_some, hnew]
        rfl

end WellFormed
end Template
end Stencil
