import Stencil.Template.Rename

/-!
# Slot tables as inverses

A slot table holds, the other way round, what is written at the slots: `table.Lists f` says that it
has each name once, with all the slots at which `f` has it, in ascending order.  Every operation on
tables is described by what it does to the listed function, so nothing beyond this module looks
inside a table.

## Main definitions

* `SlotTable.Lists` — the table lists a function from slots to names.

## Main results

* `SlotTable.Lists.set` — a name gets further slots.
* `SlotTable.Lists.push` — a name gets a slot behind all others.
* `SlotTable.Lists.erase` — a name loses its slots.
* `SlotTable.Lists.transformTable` — all names are replaced at once.
-/

namespace Stencil

/-! ### Looking up -/

section Lookup

variable {κ α : Type} [BEq κ] [LawfulBEq κ] {key : κ} {v : α} {l : List (κ × α)}

/-- A lookup in a list with a first entry, by cases on the key. -/
theorem lookup_cons_ite [DecidableEq κ] (key k : κ) (v : α) (rest : List (κ × α)) :
    ((k, v) :: rest).lookup key = if key = k then some v else rest.lookup key := by
  rw [List.lookup_cons]
  by_cases h : key = k
  · simp [h]
  · have hk : (key == k) = false := by simpa using h
    rw [hk, if_neg h]

/-- A lookup where the entries of one key are left out. -/
theorem lookup_filter_ne [DecidableEq κ] (key k : κ) (l : List (κ × α)) :
    (l.filter (·.1 ≠ k)).lookup key = if key = k then none else l.lookup key := by
  induction l with
  | nil => simp
  | cons e l ih =>
    obtain ⟨k', v⟩ := e
    by_cases h : k' = k
    · subst h
      rw [List.filter_cons_of_neg (by simp), ih, lookup_cons_ite]
      by_cases hk : key = k'
      · rw [if_pos hk, if_pos hk]
      · rw [if_neg hk, if_neg hk, if_neg hk]
    · rw [List.filter_cons_of_pos (by simpa using h), lookup_cons_ite, lookup_cons_ite, ih]
      by_cases hk : key = k
      · rw [if_pos hk, if_pos hk, if_neg (fun h' => h (h'.symm.trans hk))]
      · rw [if_neg hk, if_neg hk]

/-- An entry of a list with distinct keys is found under its key. -/
theorem lookup_eq_some_of_mem (hnodup : (l.map (·.1)).Nodup) (h : (key, v) ∈ l) :
    l.lookup key = some v := by
  obtain ⟨before, after, rfl⟩ := List.append_of_mem h
  refine List.lookup_eq_some_iff.2 ⟨before, after, rfl, fun p hp => ?_⟩
  rw [List.map_append, List.nodup_append] at hnodup
  have hne := hnodup.2.2 p.1 (List.mem_map_of_mem (f := (·.1)) hp) key (by simp)
  simpa using Ne.symm hne

theorem mem_of_lookup_eq_some (h : l.lookup key = some v) : (key, v) ∈ l := by
  obtain ⟨before, after, rfl, -⟩ := List.lookup_eq_some_iff.1 h
  exact List.mem_append_right _ List.mem_cons_self

/-- A key of a list is found in it. -/
theorem exists_lookup_of_mem_keys (h : key ∈ l.map (·.1)) : ∃ v, l.lookup key = some v := by
  refine Option.isSome_iff_exists.1 (List.lookup_isSome_iff.2 ?_)
  obtain ⟨p, hp, rfl⟩ := List.mem_map.1 h
  exact ⟨p, hp, by simp⟩

end Lookup

/-! ### Slots in ascending order -/

theorem mem_insertSlot {s slot : Nat} {slots : List Nat} :
    s ∈ insertSlot slot slots ↔ s = slot ∨ s ∈ slots := by
  induction slots with
  | nil => simp [insertSlot]
  | cons a slots ih =>
    unfold insertSlot
    split
    · simp
    · simp only [List.mem_cons, ih]
      exact or_left_comm

theorem pairwise_insertSlot {slot : Nat} {slots : List Nat} (h : slots.Pairwise (· < ·))
    (hslot : slot ∉ slots) : (insertSlot slot slots).Pairwise (· < ·) := by
  induction slots with
  | nil => simp [insertSlot]
  | cons a slots ih =>
    rw [List.pairwise_cons] at h
    rw [List.mem_cons, not_or] at hslot
    unfold insertSlot
    split
    · next hle =>
      refine List.pairwise_cons.2 ⟨fun b hb => ?_, List.pairwise_cons.2 h⟩
      rcases List.mem_cons.1 hb with rfl | hb
      · omega
      · have := h.1 b hb
        omega
    · refine List.pairwise_cons.2 ⟨fun b hb => ?_, ih h.2 hslot.2⟩
      rcases mem_insertSlot.1 hb with rfl | hb
      · omega
      · exact h.1 b hb

theorem mem_sortSlots {s : Nat} {slots : List Nat} : s ∈ sortSlots slots ↔ s ∈ slots := by
  induction slots with
  | nil => simp
  | cons a slots ih => rw [sortSlots, List.foldr_cons, mem_insertSlot, List.mem_cons, ← ih]; rfl

theorem pairwise_sortSlots {slots : List Nat} (h : slots.Nodup) :
    (sortSlots slots).Pairwise (· < ·) := by
  induction slots with
  | nil => simp
  | cons a slots ih =>
    rw [List.nodup_cons] at h
    exact pairwise_insertSlot (ih h.2) (fun ha => h.1 (mem_sortSlots.1 ha))

theorem mem_mergeSlots {s : Nat} {a b : List Nat} : s ∈ mergeSlots a b ↔ s ∈ a ∨ s ∈ b := by
  rw [mergeSlots, mem_sortSlots, List.mem_append]

/-- Ascending slots without a common one are merged into ascending slots. -/
theorem pairwise_mergeSlots {a b : List Nat} (ha : a.Pairwise (· < ·)) (hb : b.Pairwise (· < ·))
    (hab : ∀ s ∈ a, s ∉ b) : (mergeSlots a b).Pairwise (· < ·) := by
  refine pairwise_sortSlots (List.nodup_append.2 ⟨?_, ?_, ?_⟩)
  · exact ha.imp (fun h => Nat.ne_of_lt h)
  · exact hb.imp (fun h => Nat.ne_of_lt h)
  · intro s hs s' hs' heq
    exact hab s hs (heq ▸ hs')

namespace SlotTable

/-! ### The entries of tables -/

theorem lookup_set (table : SlotTable) (name n : String) (slots : List Nat) :
    (table.set name slots).lookup n = if n = name then some slots else table.lookup n := by
  induction table with
  | nil => rw [set, lookup_cons_ite]
  | cons e table ih =>
    obtain ⟨k, old⟩ := e
    unfold set
    split
    · next h =>
      subst h
      rw [lookup_cons_ite, lookup_cons_ite]
      by_cases hn : n = k
      · rw [if_pos hn, if_pos hn]
      · rw [if_neg hn, if_neg hn, if_neg hn]
    · next h =>
      rw [lookup_cons_ite, lookup_cons_ite, ih]
      by_cases hn : n = k
      · rw [if_pos hn, if_pos hn, if_neg (fun h' => h (hn ▸ h'))]
      · rw [if_neg hn, if_neg hn]

@[simp] theorem names_nil : names [] = [] := rfl

@[simp] theorem names_cons (e : String × List Nat) (table : SlotTable) :
    names (e :: table) = e.1 :: names table := rfl

theorem names_set (table : SlotTable) (name : String) (slots : List Nat) :
    (table.set name slots).names
      = if name ∈ table.names then table.names else table.names ++ [name] := by
  induction table with
  | nil => simp [set]
  | cons e table ih =>
    obtain ⟨k, old⟩ := e
    unfold set
    by_cases h : k = name
    · subst h
      rw [if_pos rfl]
      simp
    · have h' : ¬ name = k := fun hk => h hk.symm
      rw [if_neg h, names_cons, names_cons, ih]
      by_cases hm : name ∈ names table
      · rw [if_pos hm, if_pos (List.mem_cons_of_mem _ hm)]
      · rw [if_neg hm, if_neg (by simp [h', hm]), List.cons_append]

/-- A slot more for a name is the slots it has, set anew. -/
theorem push_eq_set (table : SlotTable) (name : String) (slot : Nat) :
    table.push name slot = table.set name ((table.lookup name).getD [] ++ [slot]) := by
  induction table with
  | nil => rfl
  | cons e table ih =>
    obtain ⟨k, old⟩ := e
    unfold push set
    rw [lookup_cons_ite]
    by_cases h : k = name
    · subst h
      rw [if_pos rfl, if_pos rfl, if_pos rfl]
      rfl
    · rw [if_neg h, if_neg h, if_neg (fun hk => h hk.symm), ih]

theorem lookup_erase (table : SlotTable) (name n : String) :
    (table.erase name).lookup n = if n = name then none else table.lookup n :=
  lookup_filter_ne n name table

theorem names_erase (table : SlotTable) (name : String) :
    (table.erase name).names = table.names.filter (· ≠ name) := by
  rw [erase, names, names, List.filter_map]
  rfl

theorem mem_names_of_lookup {table : SlotTable} {name : String} {slots : List Nat}
    (h : table.lookup name = some slots) : name ∈ table.names :=
  List.mem_map_of_mem (f := (·.1)) (mem_of_lookup_eq_some h)

theorem exists_lookup_of_mem_names {table : SlotTable} {name : String} (h : name ∈ table.names) :
    ∃ slots, table.lookup name = some slots := exists_lookup_of_mem_keys h

/-! ### Tables that list a function -/

/-- The table lists the function `f` from slots to names: it has each name once, with all its slots
in ascending order, and only names that have slots. -/
structure Lists (table : SlotTable) (f : Nat → Option String) : Prop where
  /-- No name has two entries. -/
  nodup : table.names.Nodup
  /-- A name of the table has slots. -/
  nonempty : ∀ {n slots}, table.lookup n = some slots → slots ≠ []
  /-- The slots of a name are strictly ascending. -/
  ascending : ∀ {n slots}, table.lookup n = some slots → slots.Pairwise (· < ·)
  /-- A slot has a name just if the table has the slot for that name. -/
  mem_iff : ∀ s n, f s = some n ↔ s ∈ (table.lookup n).getD []

theorem Lists.nil {f : Nat → Option String} (hf : ∀ s, f s = none) : Lists [] f where
  nodup := List.nodup_nil
  nonempty h := by cases h
  ascending h := by cases h
  mem_iff s n := by simp [hf s]

variable {table : SlotTable} {f g : Nat → Option String} {name : String} {slots : List Nat}

theorem Lists.congr (h : table.Lists f) (hfg : ∀ s, f s = g s) : table.Lists g := by
  rw [← funext hfg]
  exact h

theorem Lists.mem_iff_of_lookup (h : table.Lists f) (hl : table.lookup name = some slots)
    (s : Nat) : f s = some name ↔ s ∈ slots := by
  rw [h.mem_iff, hl]
  rfl

/-- A name of the table is the name of some slot. -/
theorem Lists.exists_slot (h : table.Lists f) (hn : name ∈ table.names) : ∃ s, f s = some name := by
  obtain ⟨slots, hl⟩ := exists_lookup_of_mem_names hn
  obtain ⟨s, hs⟩ := List.exists_mem_of_ne_nil _ (h.nonempty hl)
  exact ⟨s, (h.mem_iff_of_lookup hl s).2 hs⟩

/-- The name of a slot is a name of the table. -/
theorem Lists.mem_names (h : table.Lists f) {s : Nat} (hs : f s = some name) :
    name ∈ table.names := by
  rw [h.mem_iff] at hs
  cases hl : table.lookup name with
  | none => rw [hl] at hs; cases hs
  | some slots => exact mem_names_of_lookup hl

/-- A name gets slots that had none, beside those it has. -/
theorem Lists.set (h : table.Lists f) (slots merged : List Nat) (hfree : ∀ s ∈ slots, f s = none)
    (hne : merged ≠ []) (hasc : merged.Pairwise (· < ·))
    (hmem : ∀ s, s ∈ merged ↔ s ∈ (table.lookup name).getD [] ∨ s ∈ slots) :
    (table.set name merged).Lists (fun s => if s ∈ slots then some name else f s) where
  nodup := by
    rw [names_set]
    split
    · exact h.nodup
    · next hn =>
      refine List.nodup_append.2 ⟨h.nodup, by simp, fun a ha b hb hab => ?_⟩
      exact hn (by rw [← List.mem_singleton.1 hb, ← hab]; exact ha)
  nonempty {n l} hl := by
    rw [lookup_set] at hl
    split at hl
    · exact Option.some.inj hl ▸ hne
    · exact h.nonempty hl
  ascending {n l} hl := by
    rw [lookup_set] at hl
    split at hl
    · exact Option.some.inj hl ▸ hasc
    · exact h.ascending hl
  mem_iff s n := by
    rw [lookup_set]
    by_cases hn : n = name
    · subst hn
      rw [if_pos rfl, Option.getD_some, hmem, ← h.mem_iff]
      by_cases hs : s ∈ slots
      · simp [hs]
      · simp [hs]
    · rw [if_neg hn, ← h.mem_iff]
      by_cases hs : s ∈ slots
      · simp [hs, hfree s hs, Ne.symm hn]
      · simp [hs]

/-- A name gets a slot behind all others. -/
theorem Lists.push (h : table.Lists f) (name : String) (slot : Nat)
    (hbehind : ∀ s, (f s).isSome → s < slot) :
    (table.push name slot).Lists (fun s => if s = slot then some name else f s) := by
  -- every slot with a name lies before the new one, so that one is free and comes last
  have hfree : f slot = none := by
    cases hf : f slot with
    | none => rfl
    | some n => exact absurd (hbehind slot (by simp [hf])) (Nat.lt_irrefl slot)
  have hlisted : ∀ s ∈ (table.lookup name).getD [], s < slot := fun s hs =>
    hbehind s (by rw [(h.mem_iff s name).2 hs]; rfl)
  have hold : ((table.lookup name).getD []).Pairwise (· < ·) := by
    cases hl : table.lookup name with
    | none => exact List.Pairwise.nil
    | some slots => exact h.ascending hl
  rw [push_eq_set]
  refine (h.set [slot] _ (by simpa using hfree) (by simp) ?_ (by simp)).congr (by simp)
  refine List.pairwise_append.2 ⟨hold, by simp, fun a ha b hb => ?_⟩
  rw [List.mem_singleton.1 hb]
  exact hlisted a ha

/-- A name loses its slots. -/
theorem Lists.erase (h : table.Lists f) (name : String) :
    (table.erase name).Lists (fun s => if f s = some name then none else f s) where
  nodup := by
    rw [names_erase]
    exact h.nodup.filter _
  nonempty {n l} hl := by
    rw [lookup_erase] at hl
    split at hl
    · cases hl
    · exact h.nonempty hl
  ascending {n l} hl := by
    rw [lookup_erase] at hl
    split at hl
    · cases hl
    · exact h.ascending hl
  mem_iff s n := by
    rw [lookup_erase]
    by_cases hn : n = name
    · subst hn
      rw [if_pos rfl]
      split
      · simp
      · next hs => simpa using hs
    · rw [if_neg hn, ← h.mem_iff]
      split
      · next hs => simp [hs, Ne.symm hn]
      · rfl

/-- A name is replaced by another one, the slots of which are put in order with its own. -/
theorem Lists.rename (h : table.Lists f) {current new : String} (hcn : current ≠ new)
    {others : List Nat} (hcurrent : table.lookup current = some slots)
    (hnew : (table.lookup new).getD [] = others) {merged : List Nat}
    (hasc : merged.Pairwise (· < ·)) (hmem : ∀ s, s ∈ merged ↔ s ∈ slots ∨ s ∈ others) :
    ((table.erase current).set new merged).Lists
      (fun s => if f s = some current then some new else f s) := by
  have hslots := h.mem_iff_of_lookup hcurrent
  have hlookup : ((table.erase current).lookup new).getD [] = others := by
    rw [lookup_erase, if_neg (Ne.symm hcn), hnew]
  -- the slots of the current name are free once it is erased
  refine ((h.erase current).set slots _ ?_ ?_ hasc ?_).congr ?_
  · intro s hs
    rw [if_pos ((hslots s).2 hs)]
  · obtain ⟨s, hs⟩ := List.exists_mem_of_ne_nil _ (h.nonempty hcurrent)
    exact List.ne_nil_of_mem ((hmem s).2 (.inl hs))
  · intro s
    rw [hmem, hlookup, or_comm]
  · intro s
    by_cases hs : s ∈ slots
    · rw [if_pos hs, if_pos ((hslots s).2 hs)]
    · have hne : ¬ f s = some current := fun hc => hs ((hslots s).1 hc)
      rw [if_neg hs, if_neg hne, if_neg hne]

/-! ### All names at once -/

/-- In a table without empty entries, the new names are computed for all names, in order. -/
theorem map_fst_newNames {new : String → Except Fault String} :
    ∀ {table : SlotTable} {renames : List (String × String)}, (∀ e ∈ table, e.2 ≠ []) →
      Template.newNames new table = .ok renames → renames.map (·.1) = table.names := by
  intro table
  induction table with
  | nil =>
    intro renames _ h
    cases h
    rfl
  | cons e table ih =>
    obtain ⟨n, slots⟩ := e
    intro renames hne h
    cases slots with
    | nil => exact absurd rfl (hne (n, []) List.mem_cons_self)
    | cons s slots =>
      unfold Template.newNames at h
      split at h
      · cases h
      · split at h
        · cases h
        · next rest hrest =>
          cases h
          rw [List.map_cons, names_cons, ih (fun e he => hne e (List.mem_cons_of_mem _ he)) hrest]

theorem Lists.nonempty_of_mem (h : table.Lists f) : ∀ e ∈ table, e.2 ≠ [] := fun _ he =>
  h.nonempty (lookup_eq_some_of_mem h.nodup he)

/-- A name that is replaced later is not replaced yet. -/
theorem lookup_eq_none_of_nodup {name new : String} {done rest : List (String × String)}
    (hnodup : ((done ++ (name, new) :: rest).map (·.1)).Nodup) : done.lookup name = none := by
  rw [List.map_append, List.nodup_append] at hnodup
  rw [List.lookup_eq_none_iff]
  intro e he
  have hne := hnodup.2.2 e.1 (List.mem_map_of_mem (f := (·.1)) he) name (by simp)
  simpa using Ne.symm hne

/-- To replace one name more changes the names at its slots only. -/
theorem Lists.bind_lookup_concat (h : table.Lists f) (hslots : table.lookup name = some slots)
    {done : List (String × String)} (hfresh : done.lookup name = none) (new : String) (s : Nat) :
    (if s ∈ slots then some new else (f s).bind (done.lookup ·)) =
      (f s).bind ((done ++ [(name, new)]).lookup ·) := by
  have hat := h.mem_iff_of_lookup hslots s
  by_cases hs : s ∈ slots
  · rw [if_pos hs, hat.2 hs, Option.bind_some, List.lookup_append, hfresh]
    simp
  · rw [if_neg hs]
    cases hf : f s with
    | none => rfl
    | some n =>
      have hne : n ≠ name := fun hn => hs (hat.1 (by rw [hf, hn]))
      simp [List.lookup_append, lookup_cons_ite, hne]

/-- The table in the making lists the slots of the names that are already replaced; so each further
name finds its slots free.  The induction is on the names that are still to be replaced. -/
theorem Lists.transformTable {merge : Bool} {old : SlotTable} (hold : old.Lists f) :
    ∀ {renames : List (String × String)} (done : List (String × String)) {table result : SlotTable},
      ((done ++ renames).map (·.1)).Nodup → (∀ p ∈ renames, p.1 ∈ old.names) →
      table.Lists (fun s => (f s).bind (done.lookup ·)) →
      Stencil.Template.transformTable merge old table renames = .ok result →
      result.Lists (fun s => (f s).bind ((done ++ renames).lookup ·)) := by
  intro renames
  induction renames with
  | nil =>
    intro done table result _ _ h hr
    rw [List.append_nil]
    cases hr
    exact h
  | cons p rest ih =>
    obtain ⟨name, new⟩ := p
    intro done table result hnodup hknown h hr
    obtain ⟨slots, hslots⟩ := exists_lookup_of_mem_names (hknown (name, new) List.mem_cons_self)
    -- the table lists only slots of names that are done, so those of `name` are free
    have hfresh : done.lookup name = none := lookup_eq_none_of_nodup hnodup
    have hfree : ∀ s ∈ slots, (f s).bind (done.lookup ·) = none := by
      intro s hs
      rw [(hold.mem_iff_of_lookup hslots s).2 hs]
      exact hfresh
    have hnext := hold.bind_lookup_concat hslots hfresh new
    have hnodup' : ((done ++ [(name, new)] ++ rest).map (·.1)).Nodup := by simpa using hnodup
    have hknown' : ∀ p ∈ rest, p.1 ∈ old.names := fun p hp =>
      hknown p (List.mem_cons_of_mem _ hp)
    rw [List.append_cons]
    simp only [Template.transformTable, hslots, Option.getD_some] at hr
    -- no name that is done became `new`, or one did and the two share its entry
    split at hr
    · next hl =>
      refine ih _ hnodup' hknown' ((h.set slots _ hfree (hold.nonempty hslots)
        (hold.ascending hslots) (fun s => ?_)).congr hnext) hr
      rw [hl]
      simp
    · next others hl =>
      split at hr
      · refine ih _ hnodup' hknown' ((h.set slots (mergeSlots others slots) hfree ?_ ?_
          (fun s => ?_)).congr hnext) hr
        · obtain ⟨s, hs⟩ := List.exists_mem_of_ne_nil _ (hold.nonempty hslots)
          exact List.ne_nil_of_mem (mem_mergeSlots.2 (.inr hs))
        · refine pairwise_mergeSlots (h.ascending hl) (hold.ascending hslots) (fun s hs hs' => ?_)
          have := (h.mem_iff_of_lookup hl s).2 hs
          rw [hfree s hs'] at this
          cases this
        · rw [mem_mergeSlots, hl, Option.getD_some]
      · cases hr

end SlotTable

end Stencil
