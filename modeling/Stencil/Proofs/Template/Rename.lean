import Stencil.Proofs.Template.Transform

/-!
# One name

A placeholder can be renamed in two ways: by an entry of the table that takes the place of another,
or by a transformation that leaves all other names as they are.  The names at the slots decide the
table but for its order, so it is enough that the two ways agree on them.

## Main definitions

* `Template.replacing` — the function that replaces one name.
* `Template.Renames` — one template is another with a placeholder renamed.
* `Template.EqUpToOrder` — two templates differ only in the order of their tables.

## Main results

* `Template.WellFormed.slots?_eq_some_iff` — the names at the slots decide the slots of a name.
* `Template.WellFormed.rename_cases` — the three ways for a renaming to end.
* `Template.rename_laws` — what a renaming does, and that a transformation does the same.
-/

namespace Stencil
namespace Template

variable {ω : Type} {t t' : Template ω} {current new : String} {merge : Bool}

/-! ### What the names at the slots decide -/

/-- The slots of a name are those that have it, in ascending order. -/
theorem WellFormed.slots?_eq_some_iff (h : t.WellFormed) {n : String} {slots : List Nat} :
    t.slots? n = some slots ↔
      slots ≠ [] ∧ slots.Pairwise (· < ·) ∧ ∀ s, s ∈ slots ↔ t.nameAt s = some n := by
  rw [h.slots?_eq_lookup]
  constructor
  · exact fun hl => ⟨h.lists.nonempty hl, h.lists.ascending hl, fun s =>
      (h.lists.mem_iff_of_lookup hl s).symm⟩
  · rintro ⟨hne, hasc, hmem⟩
    -- some slot has the name, so the table has an entry for it
    obtain ⟨s, hs⟩ := List.exists_mem_of_ne_nil slots hne
    obtain ⟨slots', hl⟩ := SlotTable.exists_lookup_of_mem_names (h.lists.mem_names ((hmem s).1 hs))
    rw [hl, (h.lists.ascending hl).eq_of_mem_iff hasc fun s =>
      (h.lists.mem_iff_of_lookup hl s).symm.trans (hmem s).symm]

theorem WellFormed.mem_slots? (h : t.WellFormed) {n : String} {s : Nat} :
    s ∈ (t.slots? n).getD [] ↔ t.nameAt s = some n := by
  rw [h.slots?_eq_lookup]
  exact (h.lists.mem_iff s n).symm

/-- A name has the same slots in two templates if it stands at the same slots. -/
theorem WellFormed.slots?_congr (h : t.WellFormed) (h' : t'.WellFormed) {n : String}
    (hat : ∀ s, t'.nameAt s = some n ↔ t.nameAt s = some n) : t'.slots? n = t.slots? n := by
  refine Option.ext fun slots => ?_
  rw [h.slots?_eq_some_iff, h'.slots?_eq_some_iff]
  simp only [hat]

/-- A name that stands at no slot has none. -/
theorem WellFormed.slots?_eq_none (h : t.WellFormed) {n : String} (hat : ∀ s, t.nameAt s ≠ some n) :
    t.slots? n = none := by
  refine Option.eq_none_iff_forall_ne_some.2 fun slots hslots => ?_
  obtain ⟨hne, -, hmem⟩ := h.slots?_eq_some_iff.1 hslots
  obtain ⟨s, hs⟩ := List.exists_mem_of_ne_nil slots hne
  exact hat s ((hmem s).1 hs)

/-- Two templates differ only in the order of their tables. -/
structure EqUpToOrder (t t' : Template ω) : Prop where
  /-- The names of the templates are equal. -/
  name : t.name = t'.name
  /-- The fragments are equal. -/
  fragments : t.fragments = t'.fragments
  /-- The names at the slots are equal. -/
  slotNames : t.slotNames = t'.slotNames
  /-- The wraps are equal. -/
  wraps : t.wraps = t'.wraps
  /-- The tables have the same entries. -/
  table : t.table.Perm t'.table

/-- The tables of well-formed templates have the same entries if the same names are at their
slots. -/
theorem WellFormed.table_perm (h : t.WellFormed) (h' : t'.WellFormed)
    (hat : ∀ s, t.nameAt s = t'.nameAt s) : t.table.Perm t'.table := by
  have hmem {t : Template ω} (h : t.WellFormed) (e : String × List Nat) :
      e ∈ t.table ↔ t.slots? e.1 = some e.2 := by
    rw [h.slots?_eq_lookup]
    exact ⟨lookup_eq_some_of_mem h.lists.nodup, mem_of_lookup_eq_some⟩
  have hnodup {t : Template ω} (h : t.WellFormed) : t.table.Nodup := h.lists.nodup.of_map _
  refine (List.perm_ext_iff_of_nodup (hnodup h) (hnodup h')).2 fun e => ?_
  rw [hmem h, hmem h', h'.slots?_congr h fun s => by rw [hat]]

/-! ### Renaming in the table -/

/-- The template `t'` is `t` with the placeholder `current` renamed to `new`. -/
structure Renames (t t' : Template ω) (current new : String) : Prop where
  /-- The template keeps its own name. -/
  name : t'.name = t.name
  /-- The fragments stay. -/
  fragments : t'.fragments = t.fragments
  /-- The wraps stay. -/
  wraps : t'.wraps = t.wraps
  /-- The new name stands where the old one stood, and all others stay. -/
  nameAt : ∀ s, t'.nameAt s = if t.nameAt s = some current then some new else t.nameAt s
  /-- The new name has the slots of both, in ascending order. -/
  merged : ∃ slots, t'.slots? new = some slots ∧ slots.Pairwise (· < ·) ∧
    ∀ s, s ∈ slots ↔ s ∈ (t.slots? current).getD [] ∨ s ∈ (t.slots? new).getD []
  /-- A name that is given up has no slots. -/
  given : current ≠ new → t'.slots? current = none
  /-- All other names keep their slots. -/
  others : ∀ n, n ≠ current → n ≠ new → t'.slots? n = t.slots? n

/-- What is renamed at the slots is renamed altogether. -/
theorem WellFormed.renames (h : t.WellFormed) (h' : t'.WellFormed) (hname : t'.name = t.name)
    (hfragments : t'.fragments = t.fragments) (hwraps : t'.wraps = t.wraps)
    (hat : ∀ s, t'.nameAt s = if t.nameAt s = some current then some new else t.nameAt s)
    (hcurrent : current ∈ t.names) : Renames t t' current new where
  name := hname
  fragments := hfragments
  wraps := hwraps
  nameAt := hat
  merged := by
    have hnew (s : Nat) : t'.nameAt s = some new ↔
        t.nameAt s = some current ∨ t.nameAt s = some new := by
      rw [hat]
      split
      · next hs => simp [hs]
      · next hs => simp [hs]
    -- the old name has a slot, so the new one has it now
    have hmem : new ∈ t'.names := by
      obtain ⟨slots, hl⟩ := SlotTable.exists_lookup_of_mem_names hcurrent
      obtain ⟨s, hs⟩ := List.exists_mem_of_ne_nil slots (h.lists.nonempty hl)
      exact h'.lists.mem_names ((hnew s).2 (.inl ((h.lists.mem_iff_of_lookup hl s).2 hs)))
    obtain ⟨slots, hl⟩ := SlotTable.exists_lookup_of_mem_names hmem
    rw [← h'.slots?_eq_lookup] at hl
    obtain ⟨-, hasc, hslots⟩ := h'.slots?_eq_some_iff.1 hl
    refine ⟨slots, hl, hasc, fun s => ?_⟩
    rw [hslots, hnew, h.mem_slots?, h.mem_slots?]
  given hne := by
    refine h'.slots?_eq_none fun s hs => ?_
    rw [hat] at hs
    split at hs
    · exact hne (Option.some.inj hs).symm
    · next hs' => exact hs' hs
  others n hc hn := by
    refine h.slots?_congr h' fun s => ?_
    rw [hat]
    split
    · next hs => simp [hs, Ne.symm hc, Ne.symm hn]
    · rfl

/-- The names at the slots after renaming; nothing changes if a name becomes itself. -/
theorem slotNames_rename (h : t.rename current new merge = .ok t') :
    t'.slotNames = t.slotNames.map fun n => if n = some current then some new else n := by
  obtain ⟨heq, rfl⟩ | ⟨slots, rfl⟩ := rename_eq_ok h
  · refine (List.map_id t'.slotNames).symm.trans (List.map_congr_left fun n _ => ?_)
    split
    · next hn => rw [hn, heq, id]
    · rfl
  · rfl

theorem wraps_rename (h : t.rename current new merge = .ok t') : t'.wraps = t.wraps := by
  obtain ⟨-, rfl⟩ | ⟨slots, rfl⟩ := rename_eq_ok h
  · rfl
  · rfl

theorem nameAt_rename (h : t.rename current new merge = .ok t') (s : Nat) :
    t'.nameAt s = if t.nameAt s = some current then some new else t.nameAt s := by
  have hjoin (n : Option (Option String)) :
      (n.map fun n => if n = some current then some new else n).join =
        if n.join = some current then some new else n.join := by
    rcases n with _ | _ <;> rfl
  rw [nameAt, slotNames_rename h, List.getElem?_map]
  exact hjoin t.slotNames[s]?

/-- The name is that of another placeholder, and the two must not be merged. -/
def Clashes (t : Template ω) (current new : String) (merge : Bool) : Prop :=
  new ≠ current ∧ new ∈ t.names ∧ merge = false

/-- There are three ways for a renaming to end. -/
theorem WellFormed.rename_cases (h : t.WellFormed) (current new : String) (merge : Bool) :
    (current ∉ t.names ∧
      t.rename current new merge = .error (.unknownPlaceholder current t.name)) ∨
    (current ∈ t.names ∧ t.Clashes current new merge ∧
      t.rename current new merge = .error (.nameExists current new)) ∨
    (current ∈ t.names ∧ ¬ t.Clashes current new merge ∧
      ∃ t', t.rename current new merge = .ok t' ∧ Renames t t' current new) := by
  have hrenames {t' : Template ω} (hcurrent : current ∈ t.names)
      (ht' : t.rename current new merge = .ok t') : Renames t t' current new :=
    h.renames (h.rename ht') (name_rename ht') (fragments_rename ht') (wraps_rename ht')
      (nameAt_rename ht') hcurrent
  cases hl : t.table.lookup current with
  | none =>
    refine .inl ⟨SlotTable.not_mem_names_of_lookup hl, ?_⟩
    rw [Template.rename, hl]
  | some slots =>
    have hcurrent : current ∈ t.names := SlotTable.mem_names_of_lookup hl
    by_cases heq : current = new
    · have hrun : t.rename current new merge = .ok t := by
        rw [Template.rename, hl]
        exact if_pos heq
      exact .inr (.inr ⟨hcurrent, fun hc => hc.1 heq.symm, t, hrun, hrenames hcurrent hrun⟩)
    · cases hn : t.table.lookup new with
      | none =>
        have hrun : t.rename current new merge = .ok (t.replaceName current new slots) := by
          rw [Template.rename, hl]
          dsimp only
          rw [if_neg heq, hn]
        exact .inr (.inr ⟨hcurrent, fun hc => SlotTable.not_mem_names_of_lookup hn hc.2.1, _, hrun,
          hrenames hcurrent hrun⟩)
      | some others =>
        have hrun : t.rename current new merge =
            if merge then .ok (t.replaceName current new (mergeSlots slots others))
            else .error (.nameExists current new) := by
          rw [Template.rename, hl]
          dsimp only
          rw [if_neg heq, hn]
        cases merge with
        | false =>
          have hnew : new ∈ t.names := SlotTable.mem_names_of_lookup hn
          exact .inr (.inl ⟨hcurrent, ⟨Ne.symm heq, hnew, rfl⟩, hrun⟩)
        | true =>
          have hclash : ¬ t.Clashes current new true := fun hc => by cases hc.2.2
          exact .inr (.inr ⟨hcurrent, hclash, _, hrun, hrenames hcurrent hrun⟩)

/-! ### Renaming by a transformation -/

/-- The function that replaces one name and leaves all others. -/
def replacing (current new : String) (n : String) : Except Fault String :=
  .ok (if n = current then new else n)

/-- Two names become one by it if one of them is replaced by the other. -/
theorem replacing_joins_iff {names : List String} (hcurrent : current ∈ names) :
    (∃ a ∈ names, ∃ b ∈ names, a ≠ b ∧ replacing current new a = replacing current new b) ↔
      new ≠ current ∧ new ∈ names := by
  constructor
  · rintro ⟨a, ha, b, hb, hne, hab⟩
    have hab' : (if a = current then new else a) = if b = current then new else b :=
      Except.ok.inj hab
    by_cases hac : a = current
    · have hbc : b ≠ current := fun hbc => hne (hac.trans hbc.symm)
      rw [if_pos hac, if_neg hbc] at hab'
      exact ⟨hab' ▸ hbc, hab' ▸ hb⟩
    · by_cases hbc : b = current
      · rw [if_neg hac, if_pos hbc] at hab'
        exact ⟨hab' ▸ hac, hab' ▸ ha⟩
      · rw [if_neg hac, if_neg hbc] at hab'
        exact absurd hab' hne
  · rintro ⟨hne, hnew⟩
    refine ⟨current, hcurrent, new, hnew, Ne.symm hne, ?_⟩
    rw [replacing, replacing, if_pos rfl, if_neg hne]

/-- **A transformation that replaces one name** fails as the renaming does. -/
theorem WellFormed.transform_replacing_clash_iff (h : t.WellFormed) (hcurrent : current ∈ t.names) :
    (∃ n n', t.transform (replacing current new) merge = .error (.template (.nameExists n n'))) ↔
      t.Clashes current new merge := by
  have htotal : ∀ n ∈ t.names, ∃ new', replacing current new n = .ok new' := fun n _ => ⟨_, rfl⟩
  cases merge with
  | false =>
    rw [h.transform_clash_iff, replacing_joins_iff hcurrent, and_iff_right htotal, Clashes]
    simp only [and_true]
  | true =>
    rw [h.transform_ok htotal (.inl rfl)]
    refine iff_of_false ?_ fun hc => by cases hc.2.2
    rintro ⟨n, n', hexists⟩
    cases hexists

/-- **A transformation that replaces one name** makes the same as the renaming, but for the order of
the table. -/
theorem WellFormed.transform_replacing_ok (h : t.WellFormed)
    (ht' : t.rename current new merge = .ok t') (hclash : ¬ t.Clashes current new merge)
    (hcurrent : current ∈ t.names) :
    ∃ t'', t.transform (replacing current new) merge = .ok t'' ∧ EqUpToOrder t' t'' := by
  have htotal : ∀ n ∈ t.names, ∃ new', replacing current new n = .ok new' := fun n _ => ⟨_, rfl⟩
  have hmerge : merge = true ∨ (t.names.map (newName (replacing current new))).Nodup := by
    by_contra hnot
    obtain ⟨hmerge, hdup⟩ := not_or.1 hnot
    obtain rfl : merge = false := by simpa using hmerge
    obtain ⟨n, n', hexists⟩ := h.transform_clash htotal hdup
    exact hclash ((h.transform_replacing_clash_iff hcurrent).1 ⟨n, n', hexists⟩)
  have hrun := h.transform_ok htotal hmerge
  -- both ways make the same names at the slots, and these decide the rest
  have hslotNames : t'.slotNames = (t.renamed (newName (replacing current new))).slotNames := by
    rw [slotNames_rename ht']
    refine List.map_congr_left fun n _ => ?_
    cases n with
    | none => rfl
    | some n =>
      show _ = some (if n = current then new else n)
      by_cases hn : n = current
      · rw [if_pos hn, if_pos (congrArg some hn)]
      · rw [if_neg hn, if_neg fun hs => hn (Option.some.inj hs)]
  exact ⟨t.renamed _, hrun,
    { name := (name_rename ht').trans rfl
      fragments := (fragments_rename ht').trans rfl
      slotNames := hslotNames
      wraps := (wraps_rename ht').trans rfl
      table := (h.rename ht').table_perm (h.renamed _) fun s => by
        rw [nameAt, hslotNames]
        rfl }⟩

/-! ### The laws -/

theorem WellFormed.rename_unknown_iff (h : t.WellFormed) :
    t.rename current new merge = .error (.unknownPlaceholder current t.name) ↔
      current ∉ t.names := by
  rcases h.rename_cases current new merge with
    ⟨hcurrent, hrun⟩ | ⟨hcurrent, -, hrun⟩ | ⟨hcurrent, -, t', hrun, -⟩
  · exact iff_of_true hrun hcurrent
  · exact iff_of_false (fun he => by cases he.symm.trans hrun) (not_not_intro hcurrent)
  · exact iff_of_false (fun he => by cases he.symm.trans hrun) (not_not_intro hcurrent)

theorem WellFormed.rename_clash_iff (h : t.WellFormed) :
    t.rename current new merge = .error (.nameExists current new) ↔
      current ∈ t.names ∧ t.Clashes current new merge := by
  rcases h.rename_cases current new merge with
    ⟨hcurrent, hrun⟩ | ⟨hcurrent, hclash, hrun⟩ | ⟨-, hclash, t', hrun, -⟩
  · exact iff_of_false (fun he => by cases he.symm.trans hrun) fun hc => hcurrent hc.1
  · exact iff_of_true hrun ⟨hcurrent, hclash⟩
  · exact iff_of_false (fun he => by cases he.symm.trans hrun) fun hc => hclash hc.2

/-- **The laws of renaming.**  Let a template be built by any edits.

A placeholder that the template does not have is told as unknown, and one whose new name is that of
another placeholder as a name that exists, if the two must not be merged; either leaves the template
as it was, and there is no other failure.  Otherwise the placeholder is renamed.  If the template
has the placeholder, a transformation that replaces its name fails in the same cases, and otherwise
makes the same template but for the order of the table. -/
theorem rename_laws (h : t.IsBuilt) (current new : String) (merge : Bool) :
    (t.rename current new merge = .error (.unknownPlaceholder current t.name) ↔
      current ∉ t.names) ∧
    (t.rename current new merge = .error (.nameExists current new) ↔
      current ∈ t.names ∧ t.Clashes current new merge) ∧
    (∀ e, (t.edit (.rename current new merge)).2 = some e →
      (t.edit (.rename current new merge)).1 = t ∧
        (e = .template (.unknownPlaceholder current t.name) ∨
          e = .template (.nameExists current new))) ∧
    (current ∈ t.names → ¬ t.Clashes current new merge →
      ∃ t', t.rename current new merge = .ok t' ∧ Renames t t' current new ∧
        ∃ t'', t.transform (replacing current new) merge = .ok t'' ∧ EqUpToOrder t' t'') ∧
    (current ∈ t.names →
      ((∃ n n', t.transform (replacing current new) merge =
        .error (.template (.nameExists n n'))) ↔ t.Clashes current new merge)) := by
  have hwf := h.wellFormed
  refine ⟨hwf.rename_unknown_iff, hwf.rename_clash_iff, ?_, ?_,
    fun hcurrent => hwf.transform_replacing_clash_iff hcurrent⟩
  · intro e he
    rcases hwf.rename_cases current new merge with
      ⟨-, hrun⟩ | ⟨-, -, hrun⟩ | ⟨-, -, t', hrun, -⟩
    all_goals rw [edit, hrun] at he ⊢
    · exact ⟨rfl, .inl (Option.some.inj he).symm⟩
    · exact ⟨rfl, .inr (Option.some.inj he).symm⟩
    · cases he
  · intro hcurrent hclash
    rcases hwf.rename_cases current new merge with
      ⟨hcurrent', -⟩ | ⟨-, hclash', -⟩ | ⟨-, -, t', hrun, hrenames⟩
    · exact absurd hcurrent hcurrent'
    · exact absurd hclash' hclash
    · exact ⟨t', hrun, hrenames, hwf.transform_replacing_ok hrun hclash hcurrent⟩

/-- Two names that are merged give the slots of both, whichever of the two ways it is done. -/
theorem rename_laws_merged : twoNames.IsBuilt ∧ "a" ∈ twoNames.names ∧
    ¬ twoNames.Clashes "a" "b" true ∧
      ∃ t', twoNames.rename "a" "b" true = .ok t' ∧ Renames twoNames t' "a" "b" ∧
        ∃ t'', twoNames.transform (replacing "a" "b") true = .ok t'' ∧ EqUpToOrder t' t'' := by
  have hbuilt : twoNames.IsBuilt := ⟨_, _, rfl⟩
  have hcurrent : "a" ∈ twoNames.names := by decide
  have hclash : ¬ twoNames.Clashes "a" "b" true := fun hc => by cases hc.2.2
  obtain ⟨-, -, -, hrenamed, -⟩ := rename_laws hbuilt "a" "b" true
  exact ⟨hbuilt, hcurrent, hclash, hrenamed hcurrent hclash⟩

end Template
end Stencil
