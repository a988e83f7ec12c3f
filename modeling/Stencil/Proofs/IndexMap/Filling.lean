import Stencil.Proofs.IndexMap.Tags
import Stencil.Proofs.Template.WellFormed

/-!
# Filling index maps

The fields of an index map are filled one after the other, each from the same template, as looking
for names changes nothing in a well-formed one.  A field that names a placeholder then holds its
slots, also if another field names it too.  What stops the filling is a field that cannot be filled:
one with a tag that is not read, or one that names a placeholder which must be there and is not.

## Main definitions

* `IndexField.Names` — which placeholder a field is for, by its declaration.
* `IndexField.Fails` — a field that cannot be filled from a template.
* `IndexMap.Holds` — a field holds the slots of a placeholder.
* `IndexFilling.Fills` — what filling some fields does.

## Main results

* `IndexMap.passes` — what is done for one field.
* `IndexMap.fillFields_cases` — what is done for all of them.
* `IndexMap.init_cases` — the two ways for it to end, and which placeholders are left.
-/

namespace Stencil

variable {τ ω : Type}

/-! ### Declarations -/

/-- A function of names, if there is one, as one that never gives up. -/
def IndexMap.answering (mapNames : Option (String → String)) :
    Option (String → Except Fault String) :=
  mapNames.map fun g name => .ok (g name)

namespace IndexField

variable {mapNames : Option (String → String)} {f : IndexField} {t : Template ω}

/-- The field is for the placeholder `name`, which the template may lack if it is optional: its tag
says so, or it is a list of slots without a tag, and the function of names makes `name` of its own
name. -/
inductive Names (mapNames : Option (String → String)) (f : IndexField) :
    (name : String) → (optional : Bool) → Prop where
  /-- The tag of the field says so. -/
  | tagged {tag name : String} {optional : Bool} (htag : f.tag = some tag)
    (hmeans : IndexTag.Means tag (.placeholder name optional)) : Names mapNames f name optional
  /-- The function of names does. -/
  | untagged {g : String → String} (htag : f.tag = none) (hkind : f.kind = .slots)
    (hg : mapNames = some g) : Names mapNames f (g f.name) false

/-- The tag of the field does not follow the rule. -/
def IsMalformed (f : IndexField) : Prop :=
  ∃ tag, f.tag = some tag ∧ ∀ what, ¬ IndexTag.Means tag what

/-- The field cannot be filled from the template. -/
def Fails (mapNames : Option (String → String)) (t : Template ω) (f : IndexField) : Prop :=
  f.IsMalformed ∨ ∃ name, f.Names mapNames name false ∧ name ∉ t.names

/-- A field is for one placeholder only. -/
theorem Names.unique {name name' : String} {optional optional' : Bool}
    (h : f.Names mapNames name optional) (h' : f.Names mapNames name' optional') :
    name = name' ∧ optional = optional' := by
  cases h with
  | tagged htag hmeans =>
    cases h' with
    | tagged htag' hmeans' =>
      cases htag.symm.trans htag'
      cases IndexTag.means_unique hmeans hmeans'
      exact ⟨rfl, rfl⟩
    | untagged htag' => cases htag.symm.trans htag'
  | untagged htag _ hg =>
    cases h' with
    | tagged htag' => cases htag.symm.trans htag'
    | untagged _ _ hg' =>
      cases hg.symm.trans hg'
      exact ⟨rfl, rfl⟩

/-- A field that is for a placeholder has a tag that follows the rule, or none. -/
theorem Names.not_isMalformed {name : String} {optional : Bool}
    (h : f.Names mapNames name optional) : ¬ f.IsMalformed := by
  rintro ⟨tag, htag, hnot⟩
  cases h with
  | tagged htag' hmeans =>
    cases htag.symm.trans htag'
    exact hnot _ hmeans
  | untagged htag' => cases htag.symm.trans htag'

/-- It can be filled if the template has the placeholder, or may lack it. -/
theorem Names.fails_iff {name : String} {optional : Bool} (h : f.Names mapNames name optional) :
    f.Fails mapNames t ↔ optional = false ∧ name ∉ t.names := by
  constructor
  · rintro (hmalformed | ⟨name', h', hname'⟩)
    · exact absurd hmalformed h.not_isMalformed
    · obtain ⟨rfl, rfl⟩ := h.unique h'
      exact ⟨rfl, hname'⟩
  · rintro ⟨rfl, hname⟩
    exact .inr ⟨name, h, hname⟩

end IndexField

/-! ### What fields hold -/

namespace IndexMap

/-- The field holds the slots of the placeholder in the template, and none if it lacks that. -/
def Holds (m : IndexMap τ) (t : Template ω) (field name : String) : Prop :=
  m.slots field = .ok (((t.slots? name).getD []).map Int.ofNat)

@[simp] theorem keys_set (m : IndexMap τ) (field : String) (entry : IndexEntry τ) :
    (m.set field entry).map (·.1) = m.map (·.1) := by
  rw [set, List.map_map]
  refine List.map_congr_left fun e _ => ?_
  dsimp only [Function.comp_apply]
  split <;> rfl

theorem lookup_set (m : IndexMap τ) (field : String) (entry : IndexEntry τ) (field' : String) :
    (m.set field entry).lookup field' =
      (m.lookup field').map fun old => if field' = field then entry else old := by
  induction m with
  | nil => rfl
  | cons e m ih =>
    obtain ⟨key, old⟩ := e
    have hcons : set ((key, old) :: m) field entry =
        (key, if key = field then entry else old) :: set m field entry := by
      rw [set, List.map_cons]
      split <;> rfl
    rw [hcons, lookup_cons_ite, lookup_cons_ite, ih]
    split
    · next heq => rw [heq, Option.map_some]
    · rfl

theorem get_set_of_ne (m : IndexMap τ) {field field' : String} (entry : IndexEntry τ)
    (hne : field' ≠ field) : (m.set field entry).get field' = m.get field' := by
  simp only [get, lookup_set, if_neg hne, Option.map_id']

/-- A field that an index map has holds what is put there. -/
theorem get_set_self {m : IndexMap τ} {field : String} (hfield : field ∈ m.map (·.1))
    (entry : IndexEntry τ) : (m.set field entry).get field = entry := by
  obtain ⟨old, hold⟩ := exists_lookup_of_mem_keys hfield
  rw [get, lookup_set, hold, Option.map_some, if_pos rfl, Option.getD_some]

end IndexMap

/-! ### Filling -/

/-- Filling some fields leads from one state to the other: the fields that are for a placeholder
hold its slots, and the placeholders that the template has are noted. -/
structure IndexFilling.Fills (mapNames : Option (String → String)) (fields : List IndexField)
    (st st' : IndexFilling τ ω) : Prop where
  /-- The template stays as it is. -/
  source : st'.source = st.source
  /-- The index map has the same fields as before. -/
  keys : st'.entries.map (·.1) = st.entries.map (·.1)
  /-- Other fields hold what they held. -/
  others : ∀ field, field ∉ fields.map (·.name) → st'.entries.get field = st.entries.get field
  /-- A field that is for a placeholder holds its slots. -/
  held : ∀ f ∈ fields, f.name ∈ st.entries.map (·.1) → ∀ name optional,
    f.Names mapNames name optional → st'.entries.Holds st.source f.name name
  /-- The placeholders that have a field are noted. -/
  mapped : ∀ n, n ∈ st'.mapped ↔ n ∈ st.mapped ∨
    n ∈ st.source.names ∧ ∃ f ∈ fields, ∃ optional, f.Names mapNames n optional

namespace IndexFilling.Fills

variable {mapNames : Option (String → String)} {fields : List IndexField} {f : IndexField}
  {st st₁ st₂ : IndexFilling τ ω}

theorem nil (mapNames : Option (String → String)) (st : IndexFilling τ ω) :
    Fills mapNames [] st st where
  source := rfl
  keys := rfl
  others _ _ := rfl
  held f hf := by cases hf
  mapped n := by simp

/-- A field that is for no placeholder may be filled with anything. -/
theorem unnamed (hnot : ∀ name optional, ¬ f.Names mapNames name optional)
    {entries : IndexMap τ} (hkeys : entries.map (·.1) = st.entries.map (·.1))
    (hothers : ∀ field, field ≠ f.name → entries.get field = st.entries.get field) :
    Fills mapNames [f] st { st with entries } where
  source := rfl
  keys := hkeys
  others field hfield := hothers field (by simpa using hfield)
  held f' hf' _ name optional hnames := by
    obtain rfl := List.mem_singleton.1 hf'
    exact absurd hnames (hnot name optional)
  mapped n := by simp [hnot]

/-- A field that is for a placeholder gets its slots. -/
theorem named {name : String} {optional : Bool} (hnames : f.Names mapNames name optional)
    {mapped : List String}
    (hmapped : ∀ n, n ∈ mapped ↔ n ∈ st.mapped ∨ n ∈ st.source.names ∧ n = name) :
    Fills mapNames [f] st { st with
      entries := st.entries.set f.name
        (.slots (((st.source.slots? name).getD []).map Int.ofNat))
      mapped } where
  source := rfl
  keys := IndexMap.keys_set _ _ _
  others field hfield := IndexMap.get_set_of_ne _ _ (by simpa using hfield)
  held f' hf' hkey name' optional' hnames' := by
    obtain rfl := List.mem_singleton.1 hf'
    obtain ⟨rfl, -⟩ := hnames.unique hnames'
    rw [IndexMap.Holds, IndexMap.slots, IndexMap.get_set_self hkey]
  mapped n := by
    rw [hmapped]
    refine or_congr_right (and_congr_right fun _ => ?_)
    constructor
    · rintro rfl
      exact ⟨f, List.mem_singleton_self f, optional, hnames⟩
    · rintro ⟨f', hf', optional', hnames'⟩
      obtain rfl := List.mem_singleton.1 hf'
      exact (hnames.unique hnames').1.symm

/-- One field after the other is filled, each with a name of its own. -/
theorem cons (h : Fills mapNames [f] st st₁) (hrest : Fills mapNames fields st₁ st₂)
    (hfield : f.name ∉ fields.map (·.name)) : Fills mapNames (f :: fields) st st₂ where
  source := hrest.source.trans h.source
  keys := hrest.keys.trans h.keys
  others field hother := by
    rw [List.map_cons, List.mem_cons, not_or] at hother
    exact (hrest.others field hother.2).trans (h.others field (by simpa using hother.1))
  held f' hf' hkey name optional hnames := by
    rcases List.mem_cons.1 hf' with rfl | hf'
    · have hheld := h.held f' (List.mem_singleton_self f') hkey name optional hnames
      rwa [IndexMap.Holds, IndexMap.slots, hrest.others f'.name hfield]
    · rw [← h.source]
      exact hrest.held f' hf' (h.keys.symm ▸ hkey) name optional hnames
  mapped n := by
    rw [hrest.mapped, h.mapped, h.source]
    simp only [List.mem_cons, exists_eq_or_imp, or_assoc, and_or_left, List.not_mem_nil, false_and,
      exists_false, and_false, false_or]

end IndexFilling.Fills

namespace IndexMap

variable {mapNames : Option (String → String)} {ref : τ} {f : IndexField}
  {rest : List IndexField} {st : IndexFilling τ ω}

/-- A field that is for a placeholder is filled with its slots, which are none if the template may
lack it. -/
theorem fillField_eq (h : st.source.WellFormed) (f : IndexField) (name : String)
    (optional : Bool) :
    fillField f name optional st =
      if name ∈ st.source.names ∨ optional = true then
        ({ st with
            entries := st.entries.set f.name
              (.slots (((st.source.slots? name).getD []).map Int.ofNat))
            mapped := if name ∈ st.source.names then name :: st.mapped else st.mapped }, none)
      else (st, some (.indexMap (.missingPlaceholder f.name st.source.name name))) := by
  unfold fillField
  by_cases hname : name ∈ st.source.names
  · obtain ⟨slots, hl⟩ := SlotTable.exists_lookup_of_mem_names hname
    have hfills : name ∈ st.source.names ∨ optional = true := .inl hname
    rw [if_pos hfills, if_pos hname, h.slots?_eq_lookup, hl]
    rfl
  · have hslots : st.source.slots? name = none := by
      rw [h.slots?_eq_lookup]
      exact Option.eq_none_iff_forall_ne_some.2 fun slots hl =>
        hname (SlotTable.mem_names_of_lookup hl)
    have hfills : (name ∈ st.source.names ∨ optional = true) ↔ optional = true := or_iff_right hname
    rw [hslots, h.dropEmptied_eq, if_neg hname, if_congr hfills rfl rfl]
    rfl

/-- The field is found to fail, or it is filled and the others are next. -/
def Passes (ref : τ) (mapNames : Option (String → String)) (f : IndexField)
    (rest : List IndexField) (st : IndexFilling τ ω) : Prop :=
  (f.Fails mapNames st.source ∧ ∃ cause,
    fillFields ref (answering mapNames) (f :: rest) st = (st, some (.indexMap cause))) ∨
  (¬ f.Fails mapNames st.source ∧ ∃ st', IndexFilling.Fills mapNames [f] st st' ∧
    fillFields ref (answering mapNames) (f :: rest) st =
      fillFields ref (answering mapNames) rest st')

theorem fieldTag_of_names {name : String} {optional : Bool}
    (h : f.Names mapNames name optional) :
    (f.tag.isNone && f.kind == .template) = false ∧
      (fieldTag (answering mapNames) f : Except (Failure ω) IndexTag) =
        .ok (.placeholder name optional) := by
  cases h with
  | tagged htag hmeans =>
    simp [fieldTag, htag, IndexTag.ofText_eq_ok_iff.2 hmeans, Except.mapError]
  | untagged htag hkind hg => simp [fieldTag, htag, hkind, answering, hg]

/-- A field that is for a placeholder is filled with its slots, or the template lacks it. -/
theorem passes_of_names (h : st.source.WellFormed) {name : String} {optional : Bool}
    (hnames : f.Names mapNames name optional) : Passes ref mapNames f rest st := by
  obtain ⟨hself, htag⟩ := fieldTag_of_names (ω := ω) hnames
  by_cases hfills : name ∈ st.source.names ∨ optional = true
  · have hmapped (n : String) :
        n ∈ (if name ∈ st.source.names then name :: st.mapped else st.mapped) ↔
          n ∈ st.mapped ∨ n ∈ st.source.names ∧ n = name := by
      split
      · next hname =>
        rw [List.mem_cons, or_comm]
        exact or_congr_right ⟨fun heq => ⟨heq ▸ hname, heq⟩, fun hmem => hmem.2⟩
      · next hname =>
        refine ⟨.inl, ?_⟩
        rintro (hmem | ⟨hmem, rfl⟩)
        · exact hmem
        · exact absurd hmem hname
    refine .inr ⟨?_, _, .named hnames hmapped, ?_⟩
    · rw [hnames.fails_iff]
      rintro ⟨hmandatory, hname⟩
      rcases hfills with hmem | hoptional
      · exact hname hmem
      · cases hmandatory.symm.trans hoptional
    · rw [fillFields, hself, htag]
      dsimp only
      rw [fillField_eq h, if_pos hfills]
      rfl
  · obtain ⟨hname, hmandatory⟩ := not_or.1 hfills
    refine .inl ⟨hnames.fails_iff.2 ⟨by simpa using hmandatory, hname⟩, ?_⟩
    rw [fillFields, hself, htag]
    dsimp only
    rw [fillField_eq h, if_neg hfills]
    exact ⟨_, rfl⟩

/-- A field with a tag that does not follow the rule fails. -/
theorem passes_of_isMalformed (h : f.IsMalformed) : Passes ref mapNames f rest st := by
  refine .inl ⟨.inl h, ?_⟩
  obtain ⟨tag, htag, hnot⟩ := h
  cases hread : IndexTag.ofText tag with
  | error cause => exact ⟨cause, by simp [fillFields, fieldTag, htag, hread, Except.mapError]⟩
  | ok what => exact absurd (IndexTag.ofText_eq_ok_iff.1 hread) (hnot what)

/-- Any other field is passed over, or gets the template. -/
theorem passes_of_not_names (hnot : ∀ name optional, ¬ f.Names mapNames name optional)
    (hread : ¬ f.IsMalformed) : Passes ref mapNames f rest st := by
  have hfails : ¬ f.Fails mapNames st.source := by
    rintro (hmalformed | ⟨name, hnames, -⟩)
    · exact hread hmalformed
    · exact hnot name false hnames
  have hover (hrun : fillFields ref (answering mapNames) (f :: rest) st =
      fillFields ref (answering mapNames) rest st) : Passes ref mapNames f rest st :=
    .inr ⟨hfails, st, .unnamed hnot rfl fun _ _ => rfl, hrun⟩
  cases htag : f.tag with
  | some tag =>
    cases htext : IndexTag.ofText tag with
    | error cause =>
      refine absurd ⟨tag, htag, fun what hmeans => ?_⟩ hread
      cases htext.symm.trans (IndexTag.ofText_eq_ok_iff.2 hmeans)
    | ok what =>
      cases what with
      | placeholder name optional =>
        exact absurd (.tagged htag (IndexTag.ofText_eq_ok_iff.1 htext)) (hnot name optional)
      | ignored => exact hover (by simp [fillFields, fieldTag, htag, htext, Except.mapError])
  | none =>
    cases hkind : f.kind with
    | slots =>
      cases mapNames with
      | some g => exact absurd (.untagged htag hkind rfl) (hnot (g f.name) false)
      | none => exact hover (by simp [fillFields, fieldTag, htag, hkind, answering])
    | template =>
      refine .inr ⟨hfails, _, .unnamed hnot (keys_set st.entries f.name (.template ref))
        (fun field hne => get_set_of_ne _ _ hne), ?_⟩
      simp [fillFields, htag, hkind]
    | other => exact hover (by simp [fillFields, fieldTag, htag, hkind])

/-- **What is done for one field**: it is found to fail, or it is filled and the others are next. -/
theorem passes (ref : τ) (mapNames : Option (String → String)) (h : st.source.WellFormed)
    (f : IndexField) (rest : List IndexField) : Passes ref mapNames f rest st := by
  by_cases hnames : ∃ name optional, f.Names mapNames name optional
  · obtain ⟨name, optional, hnames⟩ := hnames
    exact passes_of_names h hnames
  · by_cases hread : f.IsMalformed
    · exact passes_of_isMalformed hread
    · exact passes_of_not_names (fun name optional hn => hnames ⟨name, optional, hn⟩) hread

/-- **What is done for all fields**: one of them is found to fail, or all are filled. -/
theorem fillFields_cases (ref : τ) (mapNames : Option (String → String)) :
    ∀ {fields : List IndexField} {st : IndexFilling τ ω}, st.source.WellFormed →
      (fields.map (·.name)).Nodup →
      ((∃ f ∈ fields, f.Fails mapNames st.source) ∧ ∃ st' cause, st'.source = st.source ∧
        fillFields ref (answering mapNames) fields st = (st', some (.indexMap cause))) ∨
      ((∀ f ∈ fields, ¬ f.Fails mapNames st.source) ∧ ∃ st',
        IndexFilling.Fills mapNames fields st st' ∧
          fillFields ref (answering mapNames) fields st = (st', none)) := by
  intro fields
  induction fields with
  | nil => exact fun {st} _ _ => .inr ⟨nofun, st, .nil mapNames st, rfl⟩
  | cons f fields ih =>
    intro st h hnodup
    rw [List.map_cons, List.nodup_cons] at hnodup
    rcases passes ref mapNames h f fields with ⟨hfails, cause, hrun⟩ | ⟨hf, st₁, hfills, hrun⟩
    · exact .inl ⟨⟨f, List.mem_cons_self, hfails⟩, st, cause, rfl, hrun⟩
    · rw [hrun]
      rcases ih (hfills.source.symm ▸ h) hnodup.2 with
        ⟨⟨f', hf', hfails⟩, st', cause, hsource, hrest⟩ | ⟨hfields, st', hrest, hrun'⟩
      · rw [hfills.source] at hfails hsource
        exact .inl ⟨⟨f', List.mem_cons_of_mem _ hf', hfails⟩, st', cause, hsource, hrest⟩
      · rw [hfills.source] at hfields
        refine .inr ⟨?_, st', hfills.cons hrest hnodup.1, hrun'⟩
        rintro f' hf'
        rcases List.mem_cons.1 hf' with rfl | hf'
        · exact hf
        · exact hfields f' hf'

theorem keys_blank (fields : List IndexField) :
    (blank fields : IndexMap τ).map (·.1) = fields.map (·.name) := by
  rw [blank, List.map_map]
  rfl

/-- The placeholders without a field, and the error that lists them. -/
theorem unmapped?_eq (st : IndexFilling τ ω) : unmapped? st =
    if (st.source.names.filter fun name => !st.mapped.contains name) = [] then none
    else some (.unmapped st.source.name
      (st.source.names.filter fun name => !st.mapped.contains name)) := by
  unfold unmapped?
  split
  · next hnil => rw [if_pos hnil]
  · next hne => rw [if_neg hne]

/-- **There are two ways for it to end**: a field fails, or all that are for a placeholder hold its
slots, and the placeholders without a field are listed. -/
theorem init_cases {t : Template ω} (h : t.WellFormed) {fields : List IndexField}
    (hnodup : (fields.map (·.name)).Nodup) (ref : τ) (mapNames : Option (String → String)) :
    ((∃ f ∈ fields, f.Fails mapNames t) ∧ ∃ m cause,
      init fields ref t (answering mapNames) = (m, t, .error (.indexMap cause))) ∨
    ((∀ f ∈ fields, ¬ f.Fails mapNames t) ∧ ∃ m unmapped,
      init fields ref t (answering mapNames) =
        (m, t, .ok (if unmapped = [] then none else some (.unmapped t.name unmapped))) ∧
      unmapped.Sublist t.names ∧
      (∀ n, n ∈ unmapped ↔ n ∈ t.names ∧
        ∀ f ∈ fields, ∀ optional, ¬ f.Names mapNames n optional) ∧
      ∀ f ∈ fields, ∀ name optional, f.Names mapNames name optional → m.Holds t f.name name) := by
  have hstart : (⟨blank fields, t, []⟩ : IndexFilling τ ω).source.WellFormed := h
  rcases fillFields_cases ref mapNames hstart hnodup with
    ⟨hfails, st, cause, hsource, hrun⟩ | ⟨hfields, st, hfills, hrun⟩
  · refine .inl ⟨hfails, st.entries, cause, ?_⟩
    rw [init, hrun]
    dsimp only
    rw [hsource]
  · have hsource : st.source = t := hfills.source
    refine .inr ⟨hfields, st.entries, t.names.filter fun name => !st.mapped.contains name, ?_,
      List.filter_sublist, fun n => ?_, fun f hf name optional hnames => ?_⟩
    · rw [init, hrun]
      dsimp only
      rw [unmapped?_eq, hsource]
    · rw [List.mem_filter, Bool.not_eq_true', List.contains_eq_mem, decide_eq_false_iff_not,
        hfills.mapped]
      refine and_congr_right fun hn => ?_
      simp [hn]
    · refine hfills.held f hf ?_ name optional hnames
      rw [keys_blank]
      exact List.mem_map_of_mem hf

end IndexMap
end Stencil
