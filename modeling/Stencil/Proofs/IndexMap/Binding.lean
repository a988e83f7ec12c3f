import Stencil.Proofs.Bound.Binding
import Stencil.Proofs.Content.Causes
import Stencil.Proofs.IndexMap.Filling
import Stencil.Proofs.Template.Produced
import Stencil.Proofs.Template.Rename

/-!
# Binding through index maps

Content is bound through a field of an index map at the slots that the field holds.  A field that
was filled for a placeholder holds all slots of that, so this is another way to bind content to the
placeholder.  If no placeholder was left without a field, content bound through all these fields is
at every slot with a name, and nothing is missing in the template when it is emitted.

## Main definitions

* `Bound.BindsAs` — content bound at some slots is bound to a name.
* `Bound.bindFields` — content bound through fields of an index map.
* `IndexMap.HasSlot` — a slot is among those in a field.
* `IndexMap.IsServed` — there is content for each field that is for a placeholder.

## Main results

* `IndexMap.Holds.bindsAs` — content bound through a field is bound to its placeholder.
* `Bound.bindFields_ok` — where content is after it was bound through fields.
* `IndexMap.bindFields_complete` — then every slot with a name has some.
* `IndexMap.init_complete` — which index maps can be filled, and what is bound through them.
-/

namespace Stencil

variable {τ ω κ : Type} [Wrapping ω κ]

namespace Bound

/-! ### Slots with names -/

/-- Only slots without a name are counted. -/
theorem bindAt_named (c : κ) : ∀ (slots : List Int) (anonymous : Nat) (b : Bound ω κ),
    (∀ i ∈ slots, (b.nameAt i).isSome) →
    (bindAt c slots anonymous b).2 = (bindAt c slots anonymous b).2.map fun _ => anonymous := by
  intro slots
  induction slots with
  | nil => exact fun _ _ _ => rfl
  | cons i rest ih =>
    intro anonymous b hnamed
    obtain ⟨name, hname⟩ := Option.isSome_iff_exists.1 (hnamed i List.mem_cons_self)
    rw [bindAt]
    split
    · rfl
    · rw [hname]
      exact ih anonymous _ fun j hj => hnamed j (List.mem_cons_of_mem _ hj)

/-- Content bound at the slots is bound to the name, or not at all if the template lacks that.  No
slot without a name is among them. -/
structure BindsAs (b : Bound ω κ) (slots : List Int) (name : String) : Prop where
  /-- If the template has the name, it is as if it were bound to that. -/
  agrees : name ∈ b.template.names → ∀ c strict,
    b.bind slots c strict = ((b.bindName name c).1, (b.bindName name c).2.map fun _ => 0)
  /-- If it lacks the name, nothing changes. -/
  nothing : name ∉ b.template.names → ∀ c strict, b.bind slots c strict = (b, .ok 0)
  /-- With places for all slots it does not fail. -/
  counts : b.template.slotCount ≤ b.bindings.length → ∀ c strict,
    (b.bind slots c strict).2 = .ok 0

/-- Content bound at all slots of a name is bound to the name. -/
theorem bind_slots? {b : Bound ω κ} (h : b.template.WellFormed) {name : String}
    {slots : List Nat} (hslots : b.template.slots? name = some slots) (c : κ) (strict : Bool) :
    b.bind (slots.map Int.ofNat) c strict =
      ((b.bindName name c).1, (b.bindName name c).2.map fun _ => 0) := by
  have hnamed : ∀ i ∈ slots.map Int.ofNat, (b.nameAt i).isSome := by
    intro i hi
    obtain ⟨s, hs, rfl⟩ := List.mem_map.1 hi
    rw [← Option.getD_some (a := slots) (b := []), ← hslots, h.mem_slots?] at hs
    exact Option.isSome_of_eq_some hs
  have hcount := bindAt_named c (slots.map Int.ofNat) 0 b hnamed
  rw [bind, bindName, bindIfPresent, hslots]
  dsimp only
  rw [bindSlots]
  generalize bindAt c (slots.map Int.ofNat) 0 b = run at hcount
  obtain ⟨b', f | n⟩ := run
  · rfl
  · obtain rfl : n = 0 := Except.ok.inj hcount
    simp [Except.map]

end Bound

/-! ### Fields -/

namespace IndexMap

variable {m : IndexMap τ} {t : Template ω} {field name : String}

/-- **Content bound through a field is bound to its placeholder.** -/
theorem Holds.bindsAs (hm : m.Holds t field name) (h : t.WellFormed) :
    ∃ slots, m.slots field = .ok slots ∧
      ∀ b : Bound ω κ, b.template = t → b.BindsAs slots name := by
  refine ⟨_, hm, ?_⟩
  rintro ⟨t, bindings⟩ rfl
  have hmem (s : Nat) : s ∈ (t.slots? name).getD [] ↔ t.nameAt s = some name := h.mem_slots?
  have hslots (hname : name ∈ t.names) :
      t.slots? name = some ((t.slots? name).getD []) := by
    obtain ⟨slots, hl⟩ := SlotTable.exists_lookup_of_mem_names hname
    rw [h.slots?_eq_lookup, hl, Option.getD_some]
  have hnone (hname : name ∉ t.names) : (t.slots? name).getD [] = [] :=
    List.eq_nil_iff_forall_not_mem.2 fun s hs => hname (h.lists.mem_names ((hmem s).1 hs))
  refine ⟨fun hname c strict => Bound.bind_slots? h (hslots hname) c strict, ?_, ?_⟩
  · intro hname c strict
    rw [hnone hname]
    simp [Bound.bind, Bound.bindAt]
  · intro hlen c strict
    by_cases hname : name ∈ t.names
    · have hlt : ∀ s ∈ (t.slots? name).getD [], s < bindings.length := fun s hs =>
        Nat.lt_of_lt_of_le (h.lt_slotCount ((hmem s).1 hs)) hlen
      obtain ⟨bindings', n, hrun, -⟩ := Bound.bindAt_ofNat c t _ 0 bindings hlt
      rw [Bound.bind_slots? h (hslots hname), Bound.bindName, Bound.bindIfPresent, hslots hname]
      dsimp only
      rw [Bound.bindSlots, hrun]
      rfl
    · rw [hnone hname]
      simp [Bound.bind, Bound.bindAt]

/-- The slot is among those in the field. -/
def HasSlot (m : IndexMap τ) (field : String) (slot : Nat) : Prop :=
  ∃ slots, m.slots field = .ok slots ∧ Int.ofNat slot ∈ slots

/-- A field that holds the slots of a placeholder has those with its name. -/
theorem Holds.hasSlot_iff (hm : m.Holds t field name) (h : t.WellFormed) (s : Nat) :
    m.HasSlot field s ↔ t.nameAt s = some name := by
  rw [← h.mem_slots?]
  constructor
  · rintro ⟨slots, hslots, hs⟩
    cases hm.symm.trans hslots
    obtain ⟨s', hs', heq⟩ := List.mem_map.1 hs
    cases heq
    exact hs'
  · exact fun hs => ⟨_, hm, List.mem_map_of_mem hs⟩

end IndexMap

namespace Bound

/-- Bind content through fields of an index map, up to the first that fails, and count the slots
without a name after `anonymous` of them. -/
def bindFields (m : IndexMap τ) :
    List (String × κ) → (anonymous : Nat) → Bound ω κ → Bound ω κ × Except (Failure ω) Nat
  | [], anonymous, b => (b, .ok anonymous)
  | (field, c) :: rest, anonymous, b =>
    match m.slots field with
    | .error f => (b, .error (.fault f))
    | .ok slots =>
      match b.bind slots c false with
      | (b, .error e) => (b, .error e)
      | (b, .ok n) => bindFields m rest (anonymous + n) b

/-- Content bound through a field is at all slots that the field is for. -/
theorem bindField_ok {m : IndexMap τ} {t : Template ω} (h : t.WellFormed) {field name : String}
    (hm : m.Holds t field name) (c : κ) {bindings : List (Option κ)}
    (hlen : bindings.length = t.slotCount) :
    ∃ slots bindings', m.slots field = .ok slots ∧
      bind ⟨t, bindings⟩ slots c false = (⟨t, bindings'⟩, .ok 0) ∧
      bindings'.length = t.slotCount ∧ ∀ s, bindings'[s]? =
        if t.nameAt s = some name then some (some (Wrapping.under (t.wrapAt s) c))
        else bindings[s]? := by
  obtain ⟨slots, hslots, hbinds⟩ := hm.bindsAs (κ := κ) h
  have hb := hbinds ⟨t, bindings⟩ rfl
  by_cases hname : name ∈ t.names
  · obtain ⟨bindings', hrun, hlen', hat⟩ := bindName_cases h hlen name c
    rw [if_pos hname] at hrun
    refine ⟨slots, bindings', hslots, ?_, hlen', hat⟩
    rw [hb.agrees hname, hrun]
    rfl
  · refine ⟨slots, bindings, hslots, hb.nothing hname c false, hlen, fun s => ?_⟩
    rw [if_neg fun hs => hname (h.lists.mem_names hs)]

/-- **Where content is after it was bound through fields**: a slot has the content of a field that
has the slot, under its own wrap, or what it had before if there is no such field. -/
theorem bindFields_ok {m : IndexMap τ} {t : Template ω} (h : t.WellFormed) :
    ∀ (contents : List (String × κ)) (anonymous : Nat) (bindings : List (Option κ)),
      bindings.length = t.slotCount → (∀ e ∈ contents, ∃ name, m.Holds t e.1 name) →
      ∃ bindings', bindFields m contents anonymous ⟨t, bindings⟩ =
          (⟨t, bindings'⟩, .ok anonymous) ∧
        bindings'.length = t.slotCount ∧ ∀ s,
          (∃ e ∈ contents, m.HasSlot e.1 s ∧
            bindings'[s]? = some (some (Wrapping.under (t.wrapAt s) e.2))) ∨
          (∀ e ∈ contents, ¬ m.HasSlot e.1 s) ∧ bindings'[s]? = bindings[s]? := by
  intro contents
  induction contents with
  | nil => exact fun n bindings hlen _ => ⟨bindings, rfl, hlen, fun s => .inr ⟨nofun, rfl⟩⟩
  | cons e rest ih =>
    intro anonymous bindings hlen hfields
    obtain ⟨field, c⟩ := e
    obtain ⟨name, hm⟩ := hfields _ List.mem_cons_self
    obtain ⟨slots, bindings₁, hslots, hbind, hlen₁, hat₁⟩ := bindField_ok h hm c hlen
    obtain ⟨bindings', hrest, hlen', hat⟩ := ih anonymous bindings₁ hlen₁ fun e he =>
      hfields e (List.mem_cons_of_mem _ he)
    refine ⟨bindings', ?_, hlen', fun s => ?_⟩
    · rw [bindFields, hslots]
      dsimp only
      rw [hbind]
      exact hrest
    · rcases hat s with ⟨e, he, hslot, hs⟩ | ⟨hnot, hs⟩
      · exact .inl ⟨e, List.mem_cons_of_mem _ he, hslot, hs⟩
      · -- no later field has the slot, so it has what this one left there
        rw [hs, hat₁]
        split
        · next hname =>
          exact .inl ⟨(field, c), List.mem_cons_self, (hm.hasSlot_iff h s).2 hname, rfl⟩
        · next hname =>
          refine .inr ⟨fun e he => ?_, rfl⟩
          rcases List.mem_cons.1 he with rfl | he
          · exact mt (hm.hasSlot_iff h s).1 hname
          · exact hnot e he

end Bound

/-! ### Complete index maps -/

namespace IndexMap

variable {t : Template ω} {fields : List IndexField} {mapNames : Option (String → String)}

/-- There is content for each field that is for a placeholder, and for no other. -/
def IsServed (mapNames : Option (String → String)) (fields : List IndexField)
    (contents : List (String × κ)) : Prop :=
  ∀ field, field ∈ contents.map (·.1) ↔
    ∃ f ∈ fields, f.name = field ∧ ∃ name optional, f.Names mapNames name optional

/-- If no placeholder may be left, none is. -/
theorem requireAll_eq_ok_iff {unmapped : List String} {e : IndexMapError} :
    (requireAll (if unmapped = [] then none else some e) : Except (Failure ω) Unit) = .ok () ↔
      unmapped = [] := by
  split
  · next hnil => exact iff_of_true rfl hnil
  · next hne => exact iff_of_false (fun hok => by cases hok) hne

/-- Content bound through all fields is at every slot with a name, if each name has a field. -/
theorem bindFields_complete (h : t.WellFormed) {m : IndexMap τ} {contents : List (String × κ)}
    (hserved : IsServed mapNames fields contents)
    (hholds : ∀ f ∈ fields, ∀ name optional, f.Names mapNames name optional →
      m.Holds t f.name name)
    (hmapped : ∀ n ∈ t.names, ¬ ∀ f ∈ fields, ∀ optional, ¬ f.Names mapNames n optional)
    {b : Bound ω κ} (hb : b.template = t) (hlen : b.bindings.length = t.slotCount) :
    ∃ b', b.bindFields m contents 0 = (b', .ok 0) ∧ b'.template = t ∧
      ∀ s, (t.nameAt s).isSome → ∃ c, b'.bindings[s]? = some (some c) := by
  obtain ⟨t, bindings⟩ := b
  subst hb
  have hfields : ∀ e ∈ contents, ∃ name, m.Holds t e.1 name := by
    intro e he
    obtain ⟨f, hf, hfield, name, optional, hnames⟩ := (hserved e.1).1 (List.mem_map_of_mem he)
    exact ⟨name, hfield ▸ hholds f hf name optional hnames⟩
  obtain ⟨bindings', hrun, -, hat⟩ := Bound.bindFields_ok h contents 0 bindings hlen hfields
  refine ⟨_, hrun, rfl, fun s hs => ?_⟩
  obtain ⟨name, hname⟩ := Option.isSome_iff_exists.1 hs
  -- some field is for the name, and there is content for the field
  have hmapped := hmapped name (h.lists.mem_names hname)
  push Not at hmapped
  obtain ⟨f, hf, optional, hnames⟩ := hmapped
  obtain ⟨e, he, hfield⟩ := List.mem_map.1 ((hserved f.name).2 ⟨f, hf, rfl, name, optional, hnames⟩)
  have hslot : m.HasSlot e.1 s := by
    rw [hfield]
    exact ((hholds f hf name optional hnames).hasSlot_iff h s).2 hname
  rcases hat s with ⟨e', -, -, hbound⟩ | ⟨hnot, -⟩
  · exact ⟨_, hbound⟩
  · exact absurd hslot (hnot e he)

end IndexMap

/-! ### What is bound through them -/

namespace IndexMap

variable [Wrapping ω (Tree ω)] {t : Template ω} {fields : List IndexField}

/-- **Index maps are complete.**  Let a template be produced in whatever way, and let the fields of
an index map have names of their own.

Filling the index map leaves the template as it is, and fails just if a field has a tag that does
not follow the rule, or is for a placeholder that the template must have and lacks.  Otherwise the
placeholders that no field is for are told, in the order of the template; and content bound through
a field that is for a placeholder is bound to that placeholder.

So if no placeholder may be left and filling succeeds, content bound through all these fields is at
every slot with a name, and no emission is stopped for want of content but within that content. -/
theorem init_complete (h : t.IsProduced) (hnodup : (fields.map (·.name)).Nodup) (ref : τ)
    (mapNames : Option (String → String)) :
    let result := init fields ref t (answering mapNames)
    result.2.1 = t ∧
    ((∃ e, result.2.2 = .error (.indexMap e)) ↔ ∃ f ∈ fields, f.Fails mapNames t) ∧
    ((∀ f ∈ fields, ¬ f.Fails mapNames t) →
      (∃ unmapped,
        result.2.2 = .ok (if unmapped = [] then none else some (.unmapped t.name unmapped)) ∧
        unmapped.Sublist t.names ∧
        ∀ n, n ∈ unmapped ↔ n ∈ t.names ∧
          ∀ f ∈ fields, ∀ optional, ¬ f.Names mapNames n optional) ∧
      ∀ f ∈ fields, ∀ name optional, f.Names mapNames name optional →
        ∃ slots, result.1.slots f.name = .ok slots ∧
          ∀ b : Bound ω (Tree ω), b.template = t → b.BindsAs slots name) ∧
    ((result.2.2 >>= requireAll) = .ok () → ∀ contents : List (String × Tree ω),
      IsServed mapNames fields contents →
      ∀ b : Bound ω (Tree ω), b.template = t → b.bindings.length = t.slotCount →
        ∃ b', b.bindFields result.1 contents 0 = (b', .ok 0) ∧ b'.template = t ∧
          (∀ s, (t.nameAt s).isSome → ∃ c, b'.bindings[s]? = some (some c)) ∧
          ∀ {σ : Type} (k : Sink σ) (name template : String),
            Tree.StopsBy b'.toContent k (.unbound name template) →
            ∃ c, some c ∈ b'.bindings ∧ Tree.StopsBy c k (.unbound name template)) := by
  have hwf := h.isBuilt.wellFormed
  rcases init_cases hwf hnodup ref mapNames with
    ⟨hfails, m, cause, hrun⟩ | ⟨hfields, m, unmapped, hrun, hsub, hunmapped, hholds⟩
  · intro result
    have hresult : result = (m, t, .error (.indexMap cause)) := hrun
    rw [hresult]
    refine ⟨rfl, iff_of_true ⟨cause, rfl⟩ hfails, fun hnone => ?_, fun hall => ?_⟩
    · obtain ⟨f, hf, hfails⟩ := hfails
      exact absurd hfails (hnone f hf)
    · cases hall
  · intro result
    have hresult : result =
      (m, t, .ok (if unmapped = [] then none else some (.unmapped t.name unmapped))) := hrun
    rw [hresult]
    refine ⟨rfl, iff_of_false ?_ ?_, fun _ => ⟨⟨unmapped, rfl, hsub, hunmapped⟩, ?_⟩, ?_⟩
    · rintro ⟨e, he⟩
      cases he
    · rintro ⟨f, hf, hfails⟩
      exact hfields f hf hfails
    · exact fun f hf name optional hnames => (hholds f hf name optional hnames).bindsAs hwf
    · intro hall contents hserved b hb hlen
      have hnil : unmapped = [] := requireAll_eq_ok_iff.1 hall
      have hmapped : ∀ n ∈ t.names, ¬ ∀ f ∈ fields, ∀ optional, ¬ f.Names mapNames n optional :=
        fun n hn hnone => List.not_mem_nil (hnil ▸ (hunmapped n).2 ⟨hn, hnone⟩)
      obtain ⟨b', hbound, rfl, hat⟩ :=
        bindFields_complete hwf hserved hholds hmapped hb hlen
      exact ⟨b', hbound, rfl, hat, fun k name template hstops =>
        Tree.exists_stopsBy_unbound hat hstops⟩

/-- Fields of every sort: for the template, for a list without a tag, two for one placeholder, one
for a placeholder that the template may lack, and one for nothing. -/
def sharedFields : List IndexField :=
  [⟨"template", ⟨[.template, .other]⟩, none⟩, ⟨"Foo", ⟨[.list]⟩, none⟩,
    ⟨"bar", ⟨[.list]⟩, some "bar"⟩, ⟨"again", ⟨[.list]⟩, some "bar"⟩,
    ⟨"baz", ⟨[.list]⟩, some "baz opt"⟩, ⟨"note", ⟨[.other]⟩, some "-"⟩]

/-- Content for those that are for placeholders. -/
def sharedContents : List (String × Tree (Wrap Empty)) :=
  [("bar", .data [49]), ("Foo", .data [50]), ("again", .data [51]), ("baz", .data [52])]

/-- A template that has one name twice and a wrap for the other. -/
def sharedTemplate : Template (Wrap Empty) :=
  (Template.blank "page").edits [.addPlaceholder "Foo" none, .addPlaceholder "bar" (some .html),
    .addStatic [43], .addPlaceholder "Foo" none]

theorem isServed_sharedFields : IsServed (some id) sharedFields sharedContents := by
  intro field
  constructor
  · intro hfield
    simp only [sharedContents, List.map_cons, List.map_nil, List.mem_cons, List.not_mem_nil,
      or_false] at hfield
    rcases hfield with rfl | rfl | rfl | rfl
    · exact ⟨_, List.mem_of_getElem? (i := 2) rfl, rfl, "bar", false,
        .tagged rfl (.mandatory ⟨by decide, by decide, by decide⟩)⟩
    · exact ⟨_, List.mem_of_getElem? (i := 1) rfl, rfl, "Foo", false, .untagged rfl rfl rfl⟩
    · exact ⟨_, List.mem_of_getElem? (i := 3) rfl, rfl, "bar", false,
        .tagged rfl (.mandatory ⟨by decide, by decide, by decide⟩)⟩
    · exact ⟨_, List.mem_of_getElem? (i := 4) rfl, rfl, "baz", true,
        .tagged rfl (@IndexTag.Means.optional "baz" ⟨by decide, by decide, by decide⟩)⟩
  · rintro ⟨f, hf, rfl, name, optional, hnames⟩
    simp only [sharedFields, List.mem_cons, List.not_mem_nil, or_false] at hf
    rcases hf with rfl | rfl | rfl | rfl | rfl | rfl
    · cases hnames with
      | tagged htag => cases htag
      | untagged _ hkind => cases hkind
    · decide
    · decide
    · decide
    · decide
    · cases hnames with
      | tagged htag hmeans =>
        cases htag
        cases IndexTag.means_unique .ignored hmeans
      | untagged htag => cases htag

theorem init_complete_shared : sharedTemplate.IsProduced ∧
    (sharedFields.map (·.name)).Nodup ∧ IsServed (some id) sharedFields sharedContents ∧
      let result := init sharedFields () sharedTemplate (answering (some id))
      (result.2.2 >>= requireAll) = .ok () ∧
        ∃ b', (Bound.fresh sharedTemplate).bindFields result.1 sharedContents 0 = (b', .ok 0) ∧
          ∀ s, (sharedTemplate.nameAt s).isSome → ∃ c, b'.bindings[s]? = some (some c) := by
  have hproduced : sharedTemplate.IsProduced := .edits _ (.blank "page")
  have hnodup : (sharedFields.map (·.name)).Nodup := by decide
  have hall : ((init sharedFields () sharedTemplate (answering (some id))).2.2 >>= requireAll) =
      .ok () := rfl
  obtain ⟨-, -, -, hbound⟩ := init_complete hproduced hnodup () (some id)
  obtain ⟨b', hrun, -, hat, -⟩ := hbound hall sharedContents isServed_sharedFields
    (Bound.fresh sharedTemplate) rfl List.length_replicate
  exact ⟨hproduced, hnodup, isServed_sharedFields, hall, b', hrun, hat⟩

end IndexMap
end Stencil
