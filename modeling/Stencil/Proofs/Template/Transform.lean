import Mathlib.Data.List.Induction
import Mathlib.Data.List.Nodup
import Mathlib.Data.List.Sort
import Stencil.Proofs.Template.Edits

/-!
# All names at once

The table of a well-formed template can be read off its slots, given the order of its names.  So the
template with all names replaced can be said in one go: the names at the slots are replaced, and
the table is read off them.  That is what a transformation makes, whatever names become one, and
such replacements compose.

## Main definitions

* `Template.slotsOf`, `Template.relisted` — the table read off the slots.
* `Template.newName` — the name that a function has for a name.
* `Template.renamed` — the template with all names replaced.

## Main results

* `Template.WellFormed.relisted_names` — a well-formed template has the table read off its slots.
* `Template.renamed_renamed` — replacing names twice is replacing them once.
* `Template.WellFormed.transform_ok`, `Template.WellFormed.transform_fault`,
  `Template.WellFormed.transform_clash` — what a transformation makes, and the two ways it fails.
* `Template.transform_laws` — transformations compose, fail without a trace, and can be undone.
-/

namespace Stencil

/-! ### First occurrences -/

section FirstOccurrences

variable {α β : Type} [DecidableEq α] [DecidableEq β]

/-- A further element counts if it did not occur before. -/
theorem eraseDups_concat (l : List α) (a : α) :
    (l ++ [a]).eraseDups = if a ∈ l then l.eraseDups else l.eraseDups ++ [a] := by
  rw [List.eraseDups_append, List.cons_removeAll]
  by_cases h : a ∈ l
  · simp [h, List.removeAll]
  · simp [h, List.removeAll, List.eraseDups_cons]

theorem eraseDups_eq_self {l : List α} (h : l.Nodup) : l.eraseDups = l := by
  induction l using List.reverseRecOn with
  | nil => rfl
  | append_singleton l a ih =>
    rw [List.nodup_append] at h
    have ha : a ∉ l := fun ha => h.2.2 a ha a List.mem_cons_self rfl
    rw [eraseDups_concat, if_neg ha, ih h.1]

/-- An element that occurred before may be left out. -/
theorem eraseDups_append_cons {l : List α} {a : α} (h : a ∈ l) (rest : List α) :
    (l ++ a :: rest).eraseDups = (l ++ rest).eraseDups := by
  rw [List.eraseDups_append, List.eraseDups_append, List.cons_removeAll]
  simp [h]

/-- What occurs first is the same after a function whether or not repetitions were left out
before. -/
theorem eraseDups_map_eraseDups (g : α → β) (l : List α) :
    (l.eraseDups.map g).eraseDups = (l.map g).eraseDups := by
  induction l using List.reverseRecOn with
  | nil => rfl
  | append_singleton l a ih =>
    have hmem : g a ∈ l.eraseDups.map g ↔ g a ∈ l.map g := by
      simp only [List.mem_map, List.mem_eraseDups]
    rw [eraseDups_concat, List.map_append, List.map_singleton, eraseDups_concat]
    by_cases ha : a ∈ l
    · rw [if_pos ha, if_pos (List.mem_map_of_mem ha), ih]
    · rw [if_neg ha, List.map_append, List.map_singleton, eraseDups_concat, ih]
      simp only [hmem]

end FirstOccurrences

namespace SlotTable

theorem not_mem_names_of_lookup {table : SlotTable} {name : String}
    (h : table.lookup name = none) : name ∉ table.names := fun hmem => by
  obtain ⟨slots, hslots⟩ := exists_lookup_of_mem_names hmem
  cases h.symm.trans hslots

end SlotTable

namespace Template

/-! ### The new names -/

/-- The name that `f` has for a name; the name itself where it has none. -/
def newName (f : String → Except Fault String) (n : String) : String :=
  match f n with
  | .ok new => new
  | .error _ => n

theorem newName_of_ok {f : String → Except Fault String} {n new : String} (h : f n = .ok new) :
    newName f n = new := by
  rw [newName, h]

/-- If there is a name for every name of the table, the new names are these. -/
theorem newNames_ok {f : String → Except Fault String} : ∀ {table : SlotTable},
    (∀ e ∈ table, e.2 ≠ []) → (∀ n ∈ table.names, ∃ new, f n = .ok new) →
      newNames f table = .ok (table.names.map fun n => (n, newName f n)) := by
  intro table
  induction table with
  | nil => exact fun _ _ => rfl
  | cons e table ih =>
    obtain ⟨n, slots⟩ := e
    intro hne hf
    cases slots with
    | nil => exact absurd rfl (hne (n, []) List.mem_cons_self)
    | cons s slots =>
      obtain ⟨new, hnew⟩ := hf n List.mem_cons_self
      rw [newNames, hnew]
      dsimp only
      rw [ih (fun e he => hne e (List.mem_cons_of_mem _ he))
        (fun n hn => hf n (List.mem_cons_of_mem _ hn)), SlotTable.names_cons, List.map_cons,
        newName_of_ok hnew]

/-- If there is none for some name of the table, there are no new names, but the fault for one. -/
theorem newNames_error {f : String → Except Fault String} : ∀ {table : SlotTable},
    (∀ e ∈ table, e.2 ≠ []) → (∃ n ∈ table.names, ∃ e, f n = .error e) →
      ∃ n ∈ table.names, ∃ e, f n = .error e ∧ newNames f table = .error e := by
  intro table
  induction table with
  | nil =>
    rintro _ ⟨n, hn, -⟩
    cases hn
  | cons e table ih =>
    obtain ⟨n, slots⟩ := e
    intro hne hf
    cases slots with
    | nil => exact absurd rfl (hne (n, []) List.mem_cons_self)
    | cons s slots =>
      cases hn : f n with
      | error e => exact ⟨n, List.mem_cons_self, e, hn, by rw [newNames, hn]⟩
      | ok new =>
        -- the fault comes later
        have hlater : ∃ n ∈ SlotTable.names table, ∃ e, f n = .error e := by
          obtain ⟨n', hn', e, he⟩ := hf
          rcases List.mem_cons.1 hn' with rfl | hn'
          · cases he.symm.trans hn
          · exact ⟨n', hn', e, he⟩
        obtain ⟨n', hn', e, he, hrest⟩ :=
          ih (fun e he => hne e (List.mem_cons_of_mem _ he)) hlater
        refine ⟨n', List.mem_cons_of_mem _ hn', e, he, ?_⟩
        rw [newNames, hn]
        dsimp only
        rw [hrest]

/-! ### The table of the new names -/

/-- The names come into the table in the order of their first occurrences, if names may be merged or
none occurs twice. -/
theorem transformTable_ok (merge : Bool) (old : SlotTable) (renames : List (String × String)) :
    ∀ table : SlotTable, table.names.Nodup →
      (merge = true ∨ (table.names ++ renames.map (·.2)).Nodup) →
      ∃ result, transformTable merge old table renames = .ok result ∧
        result.names = (table.names ++ renames.map (·.2)).eraseDups := by
  induction renames with
  | nil =>
    intro table hnodup _
    exact ⟨table, rfl, by rw [List.map_nil, List.append_nil, eraseDups_eq_self hnodup]⟩
  | cons p rest ih =>
    obtain ⟨name, new⟩ := p
    intro table hnodup hmerge
    rw [transformTable]
    cases hl : table.lookup new with
    | none =>
      -- a new entry comes at the end of the table
      have hnew := SlotTable.not_mem_names_of_lookup hl
      have hnames (slots : List Nat) : (table.set new slots).names = table.names ++ [new] := by
        rw [SlotTable.names_set, if_neg hnew]
      obtain ⟨result, hresult, hnames'⟩ := ih (table.set new ((old.lookup name).getD []))
        (by rw [hnames, ← List.concat_eq_append]; exact hnodup.concat hnew)
        (by rw [hnames, List.append_assoc]; exact hmerge)
      refine ⟨result, hresult, ?_⟩
      rw [hnames', hnames, List.append_assoc, List.singleton_append, List.map_cons]
    | some others =>
      -- the entry is there, so the two names are merged
      have hnew : new ∈ table.names := SlotTable.mem_names_of_lookup hl
      have hnames (slots : List Nat) : (table.set new slots).names = table.names := by
        rw [SlotTable.names_set, if_pos hnew]
      obtain rfl : merge = true := by
        refine hmerge.resolve_right fun h => ?_
        rw [List.nodup_append] at h
        exact h.2.2 new hnew new List.mem_cons_self rfl
      obtain ⟨result, hresult, hnames'⟩ :=
        ih (table.set new (mergeSlots others ((old.lookup name).getD [])))
          (by rw [hnames]; exact hnodup) (.inl rfl)
      refine ⟨result, hresult, ?_⟩
      rw [hnames', hnames, List.map_cons, eraseDups_append_cons hnew]

/-- Without merging, a name that occurs twice is an error. -/
theorem transformTable_clash (old : SlotTable) (renames : List (String × String)) :
    ∀ table : SlotTable, table.names.Nodup → ¬ (table.names ++ renames.map (·.2)).Nodup →
      ∃ name new, transformTable false old table renames = .error (.nameExists name new) := by
  induction renames with
  | nil =>
    intro table hnodup hdup
    exact absurd (by rwa [List.map_nil, List.append_nil]) hdup
  | cons p rest ih =>
    obtain ⟨name, new⟩ := p
    intro table hnodup hdup
    rw [transformTable]
    cases hl : table.lookup new with
    | some others => exact ⟨name, new, rfl⟩
    | none =>
      have hnew := SlotTable.not_mem_names_of_lookup hl
      have hnames (slots : List Nat) : (table.set new slots).names = table.names ++ [new] := by
        rw [SlotTable.names_set, if_neg hnew]
      exact ih (table.set new ((old.lookup name).getD []))
        (by rw [hnames, ← List.concat_eq_append]; exact hnodup.concat hnew)
        (by rw [hnames, List.append_assoc]; exact hdup)

/-! ### Tables read off the slots -/

variable {ω : Type} {t t' : Template ω} {φ ψ : String → String}

/-- The slots that have a name. -/
def slotsOf (t : Template ω) (n : String) : List Nat :=
  (List.range t.slotCount).filter fun s => t.nameAt s = some n

/-- The template with a table of some names that is read off the slots. -/
def relisted (t : Template ω) (names : List String) : Template ω :=
  { t with table := names.map fun n => (n, t.slotsOf n) }

@[simp] theorem names_relisted (t : Template ω) (names : List String) :
    (t.relisted names).names = names := by
  rw [relisted, Template.names, SlotTable.names, List.map_map]
  exact List.map_id names

theorem pairwise_slotsOf (t : Template ω) (n : String) : (t.slotsOf n).Pairwise (· < ·) :=
  List.pairwise_lt_range.filter _

theorem WellFormed.mem_slotsOf (h : t.WellFormed) {n : String} {s : Nat} :
    s ∈ t.slotsOf n ↔ t.nameAt s = some n := by
  rw [slotsOf, List.mem_filter, List.mem_range, decide_eq_true_iff]
  exact and_iff_right_of_imp h.lt_slotCount

/-- The table has for a name the slots that have the name. -/
theorem WellFormed.slotsOf_of_lookup (h : t.WellFormed) {n : String} {slots : List Nat}
    (hl : t.table.lookup n = some slots) : t.slotsOf n = slots :=
  (t.pairwise_slotsOf n).eq_of_mem_iff (h.lists.ascending hl) fun s =>
    h.mem_slotsOf.trans (h.lists.mem_iff_of_lookup hl s)

/-- **A well-formed template has the table that is read off its slots.** -/
theorem WellFormed.relisted_names (h : t.WellFormed) : t.relisted t.names = t := by
  have htable : (t.names.map fun n => (n, t.slotsOf n)) = t.table := by
    rw [Template.names, SlotTable.names, List.map_map]
    refine (List.map_congr_left fun e he => ?_).trans (List.map_id t.table)
    have hl := lookup_eq_some_of_mem h.lists.nodup he
    exact Prod.ext rfl (h.slotsOf_of_lookup hl)
  rw [relisted, htable]

/-! ### Templates with their names replaced -/

/-- The template with every name replaced: at the slots, and in the table, which has the new names
in the order of their first occurrences. -/
def renamed (φ : String → String) (t : Template ω) : Template ω :=
  ({ t with slotNames := t.slotNames.map (·.map φ) } : Template ω).relisted
    (t.names.map φ).eraseDups

@[simp] theorem names_renamed (φ : String → String) (t : Template ω) :
    (t.renamed φ).names = (t.names.map φ).eraseDups := names_relisted _ _

@[simp] theorem nameAt_renamed (φ : String → String) (t : Template ω) (s : Nat) :
    (t.renamed φ).nameAt s = (t.nameAt s).map φ := by
  simp only [nameAt, renamed, relisted, List.getElem?_map]
  cases t.slotNames[s]? <;> rfl

/-- **Replacing names twice is replacing them once.** -/
theorem renamed_renamed (φ ψ : String → String) (t : Template ω) :
    (t.renamed φ).renamed ψ = t.renamed (ψ ∘ φ) := by
  have hslots : (t.renamed φ).slotNames.map (·.map ψ) = t.slotNames.map (·.map (ψ ∘ φ)) := by
    simp only [renamed, relisted, List.map_map, Function.comp_def, Option.map_map]
  have hnames : ((t.renamed φ).names.map ψ).eraseDups = (t.names.map (ψ ∘ φ)).eraseDups := by
    rw [names_renamed, eraseDups_map_eraseDups, List.map_map]
  rw [renamed, hslots, hnames]
  rfl

/-- The names at the slots are those of the table, so only there it matters what they become. -/
theorem WellFormed.map_slotNames_congr (h : t.WellFormed) (heq : ∀ n ∈ t.names, φ n = ψ n) :
    t.slotNames.map (·.map φ) = t.slotNames.map (·.map ψ) := by
  refine List.map_congr_left fun name hname => ?_
  cases name with
  | none => rfl
  | some n =>
    obtain ⟨s, hs⟩ := List.getElem?_of_mem hname
    have hat : t.nameAt s = some n := by
      rw [nameAt, hs]
      rfl
    exact congrArg some (heq n (h.lists.mem_names hat))

theorem WellFormed.renamed_congr (h : t.WellFormed) (heq : ∀ n ∈ t.names, φ n = ψ n) :
    t.renamed φ = t.renamed ψ := by
  rw [renamed, renamed, h.map_slotNames_congr heq, List.map_congr_left heq]

/-- Nothing changes where every name becomes itself. -/
theorem WellFormed.renamed_eq_self (h : t.WellFormed) (hid : ∀ n ∈ t.names, φ n = n) :
    t.renamed φ = t := by
  have hnodup : t.names.Nodup := h.lists.nodup
  have hnames : (t.names.map id).eraseDups = t.names := by
    rw [List.map_id, eraseDups_eq_self hnodup]
  rw [h.renamed_congr (ψ := id) hid, renamed, hnames]
  simp only [Option.map_id, List.map_id]
  exact h.relisted_names

/-! ### Transformations -/

variable {f g : String → Except Fault String} {merge : Bool}

/-- **What a transformation makes**: the template with the new names, if there is one for every
name, and names may be merged or no two become one. -/
theorem WellFormed.transform_ok (h : t.WellFormed) (hf : ∀ n ∈ t.names, ∃ new, f n = .ok new)
    (hmerge : merge = true ∨ (t.names.map (newName f)).Nodup) :
    t.transform f merge = .ok (t.renamed (newName f)) := by
  have hrenames := newNames_ok h.lists.nonempty_of_mem hf
  have hsnd : (t.table.names.map fun n => (n, newName f n)).map (·.2) =
      t.names.map (newName f) := by
    rw [List.map_map]
    rfl
  obtain ⟨table, htable, hnames⟩ := transformTable_ok merge t.table
    (t.table.names.map fun n => (n, newName f n)) [] List.nodup_nil (by rwa [hsnd])
  rw [SlotTable.names_nil, List.nil_append, hsnd] at hnames
  have hslots : t.slotNames.map
        (·.map fun n => ((t.table.names.map fun n => (n, newName f n)).lookup n).getD n) =
      t.slotNames.map (·.map (newName f)) := by
    refine h.map_slotNames_congr fun n hn => ?_
    have hkeys : ((t.table.names.map fun n => (n, newName f n)).map (·.1)).Nodup := by
      rw [List.map_map]
      exact (List.map_id t.table.names).symm ▸ h.lists.nodup
    rw [lookup_eq_some_of_mem hkeys (List.mem_map_of_mem hn), Option.getD_some]
  -- the result is well-formed, so its table is the one read off its slots
  have hrun : t.transform f merge =
      .ok { t with table, slotNames := t.slotNames.map (·.map (newName f)) } := by
    rw [Template.transform, hrenames]
    dsimp only
    rw [htable, ← hslots]
  have hlisted := (h.transform hrun).relisted_names
  rw [hrun, ← hlisted, renamed, ← hnames]
  rfl

/-- A transformation fails by the fault for a name that has no new one. -/
theorem WellFormed.transform_fault (h : t.WellFormed) (merge : Bool)
    (hf : ∃ n ∈ t.names, ∃ e, f n = .error e) :
    ∃ n ∈ t.names, ∃ e, f n = .error e ∧ t.transform f merge = .error (.fault e) := by
  obtain ⟨n, hn, e, he, hnames⟩ := newNames_error h.lists.nonempty_of_mem hf
  exact ⟨n, hn, e, he, by rw [Template.transform, hnames]⟩

/-- A transformation that must not merge fails if two names become one. -/
theorem WellFormed.transform_clash (h : t.WellFormed) (hf : ∀ n ∈ t.names, ∃ new, f n = .ok new)
    (hdup : ¬ (t.names.map (newName f)).Nodup) :
    ∃ name new, t.transform f false = .error (.template (.nameExists name new)) := by
  have hrenames := newNames_ok h.lists.nonempty_of_mem hf
  obtain ⟨name, new, htable⟩ := transformTable_clash t.table
    (t.table.names.map fun n => (n, newName f n)) [] List.nodup_nil
    (by rw [SlotTable.names_nil, List.nil_append, List.map_map]; exact hdup)
  refine ⟨name, new, ?_⟩
  rw [Template.transform, hrenames]
  dsimp only
  rw [htable]

/-- There are three ways for a transformation to end. -/
theorem WellFormed.transform_cases (h : t.WellFormed) (f : String → Except Fault String)
    (merge : Bool) :
    (∃ n ∈ t.names, ∃ e, f n = .error e ∧ t.transform f merge = .error (.fault e)) ∨
    ((∀ n ∈ t.names, ∃ new, f n = .ok new) ∧ ¬ (t.names.map (newName f)).Nodup ∧
      ∃ n new, t.transform f merge = .error (.template (.nameExists n new))) ∨
    ((∀ n ∈ t.names, ∃ new, f n = .ok new) ∧
      (merge = true ∨ (t.names.map (newName f)).Nodup) ∧
      t.transform f merge = .ok (t.renamed (newName f))) := by
  by_cases hfault : ∃ n ∈ t.names, ∃ e, f n = .error e
  · exact .inl (h.transform_fault merge hfault)
  · have hf : ∀ n ∈ t.names, ∃ new, f n = .ok new := by
      intro n hn
      cases hfn : f n with
      | ok new => exact ⟨new, rfl⟩
      | error e => exact absurd ⟨n, hn, e, hfn⟩ hfault
    by_cases hmerge : merge = true ∨ (t.names.map (newName f)).Nodup
    · exact .inr (.inr ⟨hf, hmerge, h.transform_ok hf hmerge⟩)
    · obtain ⟨hmerge, hdup⟩ := not_or.1 hmerge
      obtain rfl : merge = false := by simpa using hmerge
      exact .inr (.inl ⟨hf, hdup, h.transform_clash hf hdup⟩)

theorem WellFormed.transform_eq_ok_iff (h : t.WellFormed) : t.transform f merge = .ok t' ↔
    (∀ n ∈ t.names, ∃ new, f n = .ok new) ∧
      (merge = true ∨ (t.names.map (newName f)).Nodup) ∧ t' = t.renamed (newName f) := by
  constructor
  · intro hok
    rcases h.transform_cases f merge with
      ⟨-, -, e, -, hrun⟩ | ⟨-, -, n, new, hrun⟩ | ⟨hf, hmerge, hrun⟩
    · cases hok.symm.trans hrun
    · cases hok.symm.trans hrun
    · exact ⟨hf, hmerge, Except.ok.inj (hok.symm.trans hrun)⟩
  · rintro ⟨hf, hmerge, rfl⟩
    exact h.transform_ok hf hmerge

/-- Templates stay well-formed when their names are replaced. -/
theorem WellFormed.renamed (h : t.WellFormed) (φ : String → String) : (t.renamed φ).WellFormed := by
  have hrun : t.transform (fun n => .ok (φ n)) true = .ok (t.renamed φ) :=
    h.transform_ok (fun n _ => ⟨φ n, rfl⟩) (.inl rfl)
  exact h.transform hrun

/-- No two of the names become one if the function tells them apart. -/
theorem nodup_map_newName_iff {names : List String} (hnodup : names.Nodup)
    (hf : ∀ n ∈ names, ∃ new, f n = .ok new) :
    (names.map (newName f)).Nodup ↔ ∀ a ∈ names, ∀ b ∈ names, f a = f b → a = b := by
  rw [List.nodup_map_iff_inj_on hnodup]
  refine forall₂_congr fun a ha => forall₂_congr fun b hb => ?_
  obtain ⟨new, hnew⟩ := hf a ha
  obtain ⟨new', hnew'⟩ := hf b hb
  rw [newName_of_ok hnew, newName_of_ok hnew', hnew, hnew', Except.ok.injEq]

/-! ### The laws -/

/-- Both functions together have a name for every name if the first has one, and the second has one
for each of these. -/
theorem forall_bind_iff : (∀ n ∈ t.names, ∃ last, (f n >>= g) = .ok last) ↔
    (∀ n ∈ t.names, ∃ new, f n = .ok new) ∧
      ∀ m ∈ (t.renamed (newName f)).names, ∃ last, g m = .ok last := by
  simp only [names_renamed, List.mem_eraseDups, List.mem_map]
  constructor
  · intro hboth
    have hnames : ∀ n ∈ t.names, ∃ new, f n = .ok new ∧ ∃ last, g new = .ok last := by
      intro n hn
      obtain ⟨last, hlast⟩ := hboth n hn
      obtain ⟨new, hnew, hg⟩ := bind_eq_ok_iff.1 hlast
      exact ⟨new, hnew, last, hg⟩
    refine ⟨fun n hn => (hnames n hn).imp fun _ => And.left, ?_⟩
    rintro m ⟨n, hn, rfl⟩
    obtain ⟨new, hnew, hlast⟩ := hnames n hn
    rwa [newName_of_ok hnew]
  · rintro ⟨hf, hg⟩ n hn
    obtain ⟨new, hnew⟩ := hf n hn
    obtain ⟨last, hlast⟩ := hg (newName f n) ⟨n, hn, rfl⟩
    rw [newName_of_ok hnew] at hlast
    exact ⟨last, bind_eq_ok_iff.2 ⟨new, hnew, hlast⟩⟩

/-- Both functions together replace the names as the one after the other does. -/
theorem WellFormed.renamed_newName_bind (h : t.WellFormed)
    (hboth : ∀ n ∈ t.names, ∃ last, (f n >>= g) = .ok last) :
    t.renamed (newName fun n => f n >>= g) = (t.renamed (newName f)).renamed (newName g) := by
  rw [renamed_renamed]
  refine h.renamed_congr fun n hn => ?_
  obtain ⟨last, hlast⟩ := hboth n hn
  obtain ⟨new, hnew, hg⟩ := bind_eq_ok_iff.1 hlast
  rw [Function.comp_apply, newName_of_ok hnew, newName_of_ok hg, newName_of_ok hlast]

/-- **Merging transformations compose**: one after the other they make what one by both functions
makes. -/
theorem WellFormed.transform_transform_iff (h : t.WellFormed) {t'' : Template ω} :
    (∃ t', t.transform f true = .ok t' ∧ t'.transform g true = .ok t'') ↔
      t.transform (fun n => f n >>= g) true = .ok t'' := by
  constructor
  · rintro ⟨t', hfirst, hsecond⟩
    obtain ⟨hf, -, rfl⟩ := h.transform_eq_ok_iff.1 hfirst
    obtain ⟨hg, -, rfl⟩ := (h.renamed _).transform_eq_ok_iff.1 hsecond
    have hboth := forall_bind_iff.2 ⟨hf, hg⟩
    rw [← h.renamed_newName_bind hboth]
    exact h.transform_ok hboth (.inl rfl)
  · intro hrun
    obtain ⟨hboth, -, rfl⟩ := h.transform_eq_ok_iff.1 hrun
    obtain ⟨hf, hg⟩ := forall_bind_iff.1 hboth
    refine ⟨_, h.transform_ok hf (.inl rfl), ?_⟩
    rw [h.renamed_newName_bind hboth]
    exact (h.renamed _).transform_ok hg (.inl rfl)

/-- A transformation ends in a fault if, and only if, the function has one for some name. -/
theorem WellFormed.transform_fault_iff (h : t.WellFormed) :
    (∃ e, t.transform f merge = .error (.fault e)) ↔ ∃ n ∈ t.names, ∃ e, f n = .error e := by
  constructor
  · rintro ⟨e, he⟩
    rcases h.transform_cases f merge with
      ⟨n, hn, e', hfn, -⟩ | ⟨-, -, n, new, hrun⟩ | ⟨-, -, hrun⟩
    · exact ⟨n, hn, e', hfn⟩
    · cases he.symm.trans hrun
    · cases he.symm.trans hrun
  · intro hf
    obtain ⟨-, -, e, -, hfault⟩ := h.transform_fault merge hf
    exact ⟨e, hfault⟩

/-- Two names that become one are told if they must not be merged, and every name has a new one. -/
theorem WellFormed.transform_clash_iff (h : t.WellFormed) :
    (∃ n new, t.transform f false = .error (.template (.nameExists n new))) ↔
      (∀ n ∈ t.names, ∃ new, f n = .ok new) ∧
        ∃ a ∈ t.names, ∃ b ∈ t.names, a ≠ b ∧ f a = f b := by
  have hclash (hf : ∀ n ∈ t.names, ∃ new, f n = .ok new) :
      ¬ (t.names.map (newName f)).Nodup ↔ ∃ a ∈ t.names, ∃ b ∈ t.names, a ≠ b ∧ f a = f b := by
    have hnodup : t.names.Nodup := h.lists.nodup
    rw [nodup_map_newName_iff hnodup hf]
    constructor
    · intro hnot
      by_contra hnone
      refine hnot fun a ha b hb hab => ?_
      by_contra hne
      exact hnone ⟨a, ha, b, hb, hne, hab⟩
    · rintro ⟨a, ha, b, hb, hne, hab⟩ hinj
      exact hne (hinj a ha b hb hab)
  constructor
  · rintro ⟨n, new, hexists⟩
    rcases h.transform_cases f false with
      ⟨-, -, e, -, hrun⟩ | ⟨hf, hdup, -⟩ | ⟨-, -, hrun⟩
    · cases hexists.symm.trans hrun
    · exact ⟨hf, (hclash hf).1 hdup⟩
    · cases hexists.symm.trans hrun
  · rintro ⟨hf, hsame⟩
    exact h.transform_clash hf ((hclash hf).2 hsame)

/-- **A transformation is undone** by a function that undoes the one it was made by. -/
theorem WellFormed.transform_undone (h : t.WellFormed)
    (hundo : ∀ n ∈ t.names, ∃ new, f n = .ok new ∧ g new = .ok n) :
    ∃ t', t.transform f false = .ok t' ∧ t'.transform g false = .ok t := by
  obtain ⟨hf, hg⟩ := forall_bind_iff.1 fun n hn => ⟨n, bind_eq_ok_iff.2 (hundo n hn)⟩
  have hinj : (t.names.map (newName f)).Nodup := by
    have hnodup : t.names.Nodup := h.lists.nodup
    refine (nodup_map_newName_iff hnodup hf).2 fun a ha b hb hab => ?_
    obtain ⟨new, hnew, ha'⟩ := hundo a ha
    obtain ⟨new', hnew', hb'⟩ := hundo b hb
    rw [hnew, hnew', Except.ok.injEq] at hab
    subst hab
    exact Except.ok.inj (ha'.symm.trans hb')
  have hback : ∀ n ∈ t.names, (newName g ∘ newName f) n = n := by
    intro n hn
    obtain ⟨new, hnew, hn'⟩ := hundo n hn
    rw [Function.comp_apply, newName_of_ok hnew, newName_of_ok hn']
  refine ⟨_, h.transform_ok hf (.inr hinj), (h.renamed _).transform_eq_ok_iff.2 ⟨hg, .inr ?_, ?_⟩⟩
  · rw [names_renamed, eraseDups_eq_self hinj, List.map_map]
    have hsame : t.names.map (newName g ∘ newName f) = t.names :=
      (List.map_congr_left hback).trans (List.map_id _)
    rw [hsame]
    exact h.lists.nodup
  · rw [renamed_renamed, h.renamed_eq_self hback]

/-- **The laws of transformations.**  Let a template be built by any edits.

With merging, a transformation succeeds if the function has a name for every name of the template,
and two transformations one after the other make the same template as one by both functions, down
to the order of the table.  Without merging, the template's names must also stay apart: two names
that become one are told as such, if every name has a new one.  A name without a new one is always
told by the fault of the function.  Whatever fails leaves the template as it was.  And if the one
function undoes the other, the second transformation brings the template back. -/
theorem transform_laws (h : t.IsBuilt) (f g : String → Except Fault String) :
    ((∃ t', t.transform f true = .ok t') ↔ ∀ n ∈ t.names, ∃ new, f n = .ok new) ∧
    (∀ t'', (∃ t', t.transform f true = .ok t' ∧ t'.transform g true = .ok t'') ↔
      t.transform (fun n => f n >>= g) true = .ok t'') ∧
    ((∃ n new, t.transform f false = .error (.template (.nameExists n new))) ↔
      (∀ n ∈ t.names, ∃ new, f n = .ok new) ∧
        ∃ a ∈ t.names, ∃ b ∈ t.names, a ≠ b ∧ f a = f b) ∧
    (∀ merge, (∃ e, t.transform f merge = .error (.fault e)) ↔
      ∃ n ∈ t.names, ∃ e, f n = .error e) ∧
    (∀ merge e, (t.edit (.transform f merge)).2 = some e →
      (t.edit (.transform f merge)).1 = t) ∧
    ((∀ n ∈ t.names, ∃ new, f n = .ok new ∧ g new = .ok n) →
      ∃ t', t.transform f false = .ok t' ∧ t'.transform g false = .ok t) := by
  have hwf := h.wellFormed
  refine ⟨⟨?_, ?_⟩, ?_, ?_, ?_, ?_, ?_⟩
  · rintro ⟨t', ht'⟩
    exact (hwf.transform_eq_ok_iff.1 ht').1
  · exact fun hf => ⟨_, hwf.transform_ok hf (.inl rfl)⟩
  · exact fun t'' => hwf.transform_transform_iff
  · exact hwf.transform_clash_iff
  · exact fun merge => hwf.transform_fault_iff
  · intro merge e he
    cases hrun : t.transform f merge with
    | ok t' =>
      rw [edit, hrun] at he
      cases he
    | error e => rw [edit, hrun, orKept]
  · exact hwf.transform_undone

/-- A template with two placeholders. -/
def twoNames : Template Unit :=
  (blank "t").edits [.addPlaceholder "a" none, .addStatic [45], .addPlaceholder "b" none]

/-- Two names that are exchanged stay apart, and are back when they are exchanged again. -/
theorem transform_laws_exchanged :
    twoNames.IsBuilt ∧ twoNames.names = ["a", "b"] ∧
      ∃ t', twoNames.transform (fun n => .ok (if n = "a" then "b" else "a")) false = .ok t' ∧
        t'.transform (fun n => .ok (if n = "a" then "b" else "a")) false = .ok twoNames := by
  have hbuilt : twoNames.IsBuilt := ⟨_, _, rfl⟩
  have hnames : twoNames.names = ["a", "b"] := by decide
  obtain ⟨-, -, -, -, -, hundone⟩ := transform_laws hbuilt
    (fun n => .ok (if n = "a" then "b" else "a")) (fun n => .ok (if n = "a" then "b" else "a"))
  refine ⟨hbuilt, hnames, hundone fun n hn => ⟨_, rfl, ?_⟩⟩
  rw [hnames] at hn
  rcases List.mem_pair.1 hn with rfl | rfl <;> decide

end Template
end Stencil
