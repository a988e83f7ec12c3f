import Stencil.Bound.Fixate
import Stencil.Proofs.Content.Written

/-!
# Binding every placeholder

A fresh bound template gets content at all its placeholders, name by name and in any order.  Then
each named slot holds the content of its name under its own wrap, and the template writes its parts
with the holes filled.  The same content for all names may as well be bound slot by slot.

## Main definitions

* `Template.holding`, `Bound.filled` — what the slots hold then.
* `Bound.bindEach` — content bound name by name.

## Main results

* `Bound.bindNames_fresh`, `Bound.ofContent_eq` — the same content name by name, or slot by slot.
* `Bound.bindEach_fresh` — content for each name, in any order.
* `Bound.written_bindEach` — what the template writes then.
-/

namespace Stencil

section Slots

variable {ω κ : Type} [Wrapping ω κ]

/-- The content under a wrap, if there is one. -/
def Wrapping.under (wrap : Option ω) (c : κ) : κ :=
  match wrap with
  | some w => Wrapping.apply w c
  | none => c

@[simp] theorem Wrapping.under_tree [Wrapping ω (Tree ω)] (wrap : Option ω) (c : Tree ω) :
    Wrapping.under wrap c = Tree.under wrap c := rfl

/-- What a slot holds with the content that `fill` has for its name. -/
def Template.holding (t : Template ω) (fill : String → κ) (slot : Nat) : Option κ :=
  (t.nameAt slot).map fun name => Wrapping.under (t.wrapAt slot) (fill name)

namespace Bound

theorem position?_ofNat {size slot : Nat} (h : slot < size) :
    position? size (Int.ofNat slot) = some slot := by
  have hpos : ¬(Int.ofNat slot < 0) := Int.not_lt.2 (Int.natCast_nonneg slot)
  have hrange : 0 ≤ Int.ofNat slot ∧ Int.ofNat slot < size :=
    ⟨Int.natCast_nonneg slot, Int.ofNat_lt.2 h⟩
  simp only [position?, if_neg hpos, if_pos hrange]
  rfl

/-- Content bound at slots of the template is there, each under its wrap, and nothing else
changes. -/
theorem bindAt_ofNat (c : κ) (t : Template ω) : ∀ (slots : List Nat) (anonymous : Nat)
    (bindings : List (Option κ)), (∀ s ∈ slots, s < bindings.length) →
    ∃ bindings' n,
      bindAt c (slots.map Int.ofNat) anonymous ⟨t, bindings⟩ = (⟨t, bindings'⟩, .ok n) ∧
      bindings'.length = bindings.length ∧ ∀ s, bindings'[s]? =
        if s ∈ slots then some (some (Wrapping.under (t.wrapAt s) c)) else bindings[s]? := by
  intro slots
  induction slots with
  | nil => exact fun n bindings _ => ⟨bindings, n, rfl, rfl, fun s => by simp⟩
  | cons slot rest ih =>
    intro n bindings hlt
    have hslot := hlt slot List.mem_cons_self
    obtain ⟨bindings', n', hrun, hlen, hat⟩ :=
      ih (if (Bound.nameAt ⟨t, bindings⟩ slot).isNone then n + 1 else n)
        (bindings.set slot (some (Wrapping.under (t.wrapAt slot) c)))
        (fun s hs => by rw [List.length_set]; exact hlt s (List.mem_cons_of_mem _ hs))
    refine ⟨bindings', n', ?_, by rw [hlen, List.length_set], ?_⟩
    · rw [List.map_cons, bindAt, position?_ofNat hslot]
      exact hrun
    · intro s
      rw [hat, List.getElem?_set]
      -- a slot that comes again gets the same content again
      by_cases hs : s ∈ rest
      · rw [if_pos hs, if_pos (List.mem_cons_of_mem _ hs)]
      · by_cases heq : slot = s
        · subst heq
          rw [if_neg hs, if_pos rfl, if_pos hslot, if_pos List.mem_cons_self]
        · have hs' : s ∉ slot :: rest := by
            rintro (_ | ⟨_, hmem⟩)
            · exact heq rfl
            · exact hs hmem
          rw [if_neg hs, if_neg heq, if_neg hs']

/-- Content bound at the slots that the table lists under a name is at all slots of the name. -/
theorem bindSlots_ok {t : Template ω} (h : t.WellFormed) {name : String} {slots : List Nat}
    (hl : t.table.lookup name = some slots) (c : κ) {bindings : List (Option κ)}
    (hlen : bindings.length = t.slotCount) :
    ∃ bindings', bindSlots ⟨t, bindings⟩ slots c = (⟨t, bindings'⟩, .ok ()) ∧
      bindings'.length = t.slotCount ∧ ∀ s, bindings'[s]? =
        if t.nameAt s = some name then some (some (Wrapping.under (t.wrapAt s) c))
        else bindings[s]? := by
  have hmem := h.lists.mem_iff_of_lookup hl
  have hrange : ∀ s ∈ slots, s < bindings.length := by
    rw [hlen]
    exact fun _ => h.lt_slotCount_of_lookup hl
  obtain ⟨bindings', n, hrun, hlen', hat⟩ := bindAt_ofNat c t slots 0 bindings hrange
  refine ⟨bindings', by rw [bindSlots, hrun], hlen'.trans hlen, fun s => ?_⟩
  rw [hat]
  by_cases hs : s ∈ slots
  · rw [if_pos hs, if_pos ((hmem s).2 hs)]
  · rw [if_neg hs, if_neg (fun heq => hs ((hmem s).1 heq))]

/-- Content bound to a name is at all slots of the name; the answer tells whether there are any. -/
theorem bindIfPresent_ok {t : Template ω} (h : t.WellFormed) {bindings : List (Option κ)}
    (hlen : bindings.length = t.slotCount) (name : String) (c : κ) :
    ∃ bindings',
      bindIfPresent ⟨t, bindings⟩ name c = (⟨t, bindings'⟩, .ok (decide (name ∈ t.names))) ∧
      bindings'.length = t.slotCount ∧ ∀ s, bindings'[s]? =
        if t.nameAt s = some name then some (some (Wrapping.under (t.wrapAt s) c))
        else bindings[s]? := by
  unfold bindIfPresent
  dsimp only
  rw [h.slots?_eq_lookup]
  cases hslots : t.table.lookup name with
  | some slots =>
    obtain ⟨bindings', hrun, hlen', hat⟩ := bindSlots_ok h hslots c hlen
    have hname : name ∈ t.names := SlotTable.mem_names_of_lookup hslots
    refine ⟨bindings', ?_, hlen', hat⟩
    dsimp only
    rw [hrun, decide_eq_true hname]
  | none =>
    have hname : name ∉ t.names := by
      intro hname
      obtain ⟨slots, hslots'⟩ := SlotTable.exists_lookup_of_mem_names hname
      cases hslots.symm.trans hslots'
    refine ⟨bindings, ?_, hlen, fun s => ?_⟩
    · dsimp only
      rw [h.dropEmptied_eq, decide_eq_false hname]
    · rw [if_neg fun hs => hname (h.lists.mem_names hs)]

/-- So it is if the template must have the name. -/
theorem bindName_cases {t : Template ω} (h : t.WellFormed) {bindings : List (Option κ)}
    (hlen : bindings.length = t.slotCount) (name : String) (c : κ) :
    ∃ bindings', bindName ⟨t, bindings⟩ name c =
        (⟨t, bindings'⟩, if name ∈ t.names then .ok ()
          else .error (.template (.unknownPlaceholder name t.name))) ∧
      bindings'.length = t.slotCount ∧ ∀ s, bindings'[s]? =
        if t.nameAt s = some name then some (some (Wrapping.under (t.wrapAt s) c))
        else bindings[s]? := by
  obtain ⟨bindings', hrun, hlen', hat⟩ := bindIfPresent_ok h hlen name c
  refine ⟨bindings', ?_, hlen', hat⟩
  rw [bindName, hrun]
  by_cases hname : name ∈ t.names
  · rw [if_pos hname, decide_eq_true hname]
  · rw [if_neg hname, decide_eq_false hname]

/-- Content bound to a name of a template is at all slots of the name. -/
theorem bindName_ok {t : Template ω} (h : t.WellFormed) {bindings : List (Option κ)}
    (hlen : bindings.length = t.slotCount) {name : String} (hname : name ∈ t.names)
    (fill : String → κ) :
    ∃ bindings', bindName ⟨t, bindings⟩ name (fill name) = (⟨t, bindings'⟩, .ok ()) ∧
      bindings'.length = t.slotCount ∧ ∀ s, bindings'[s]? =
        if t.nameAt s = some name then some (t.holding fill s) else bindings[s]? := by
  obtain ⟨bindings', hrun, hlen', hat⟩ := bindName_cases h hlen name (fill name)
  rw [if_pos hname] at hrun
  refine ⟨bindings', hrun, hlen', fun s => ?_⟩
  rw [hat]
  split
  · next hs => rw [Template.holding, hs, Option.map_some]
  · rfl

/-- What a slot holds after its name was bound, or another one and then its name: a name that comes
again gets the same content again. -/
theorem holding_cons (t : Template ω) (fill : String → κ) (name : String) (rest : List String)
    (old : Nat → Option (Option κ)) (s : Nat) :
    (if (t.nameAt s).any (· ∈ rest) then some (t.holding fill s)
      else if t.nameAt s = some name then some (t.holding fill s) else old s) =
        if (t.nameAt s).any (· ∈ name :: rest) then some (t.holding fill s) else old s := by
  cases t.nameAt s with
  | none => rfl
  | some n =>
    by_cases heq : n = name
    · subst heq
      by_cases hmem : n ∈ rest <;> simp [hmem]
    · by_cases hmem : n ∈ rest <;> simp [hmem, heq]

/-- What the slots of a fresh bound template hold after all names were bound. -/
theorem holding_fresh {t : Template ω} (h : t.WellFormed) {names : List String}
    (hnames : ∀ n, n ∈ names ↔ n ∈ t.names) (fill : String → κ) {s : Nat}
    (hs : s ≤ t.fragments.length) :
    (if (t.nameAt s).any (· ∈ names) then some (t.holding fill s)
      else (List.replicate t.slotCount none)[s]?) = some (t.holding fill s) := by
  split
  · rfl
  · next hnot =>
    have hlt : s < t.slotCount := Nat.lt_succ_of_le hs
    rw [List.getElem?_replicate, if_pos hlt, Template.holding]
    cases hn : t.nameAt s with
    | none => rfl
    | some n =>
      rw [hn] at hnot
      have hmem : n ∈ names := (hnames n).2 (h.lists.mem_names hn)
      simp [hmem] at hnot

/-- The same content bound to some names is at the slots of these; the others keep what they had. -/
theorem bindNames_ok {t : Template ω} (h : t.WellFormed) (c : κ) :
    ∀ (names : List String) (bindings : List (Option κ)),
      bindings.length = t.slotCount → (∀ n ∈ names, n ∈ t.names) →
      ∃ bindings', bindNames c names ⟨t, bindings⟩ = (⟨t, bindings'⟩, .ok ()) ∧
        bindings'.length = t.slotCount ∧ ∀ s, bindings'[s]? =
          if (t.nameAt s).any (· ∈ names) then some (t.holding (fun _ => c) s)
          else bindings[s]? := by
  intro names
  induction names with
  | nil =>
    intro bindings hlen _
    refine ⟨bindings, rfl, hlen, fun s => ?_⟩
    cases t.nameAt s <;> rfl
  | cons name rest ih =>
    intro bindings hlen hnames
    obtain ⟨bindings₁, hbind, hlen₁, hat₁⟩ :=
      bindName_ok h hlen (hnames name List.mem_cons_self) fun _ => c
    obtain ⟨bindings', hrest, hlen', hat⟩ := ih bindings₁ hlen₁
      (fun n hn => hnames n (List.mem_cons_of_mem _ hn))
    refine ⟨bindings', ?_, hlen', fun s => ?_⟩
    · rw [bindNames, hbind]
      exact hrest
    · rw [hat, hat₁, holding_cons]

/-- The template with the content that `fill` has for each name at the slots of the name. -/
def filled (t : Template ω) (fill : String → κ) : Bound ω κ :=
  ⟨t, (List.range t.slotCount).map (t.holding fill)⟩

theorem getElem?_filled (t : Template ω) (fill : String → κ) {s : Nat}
    (hs : s ≤ t.fragments.length) : (filled t fill).bindings[s]? = some (t.holding fill s) := by
  have hlt : s < t.slotCount := Nat.lt_succ_of_le hs
  rw [filled, List.getElem?_map, List.getElem?_range hlt]
  rfl

theorem eq_filled {t : Template ω} {fill : String → κ} {bindings : List (Option κ)}
    (hlen : bindings.length = t.slotCount)
    (hat : ∀ s, s ≤ t.fragments.length → bindings[s]? = some (t.holding fill s)) :
    (⟨t, bindings⟩ : Bound ω κ) = filled t fill := by
  refine congrArg (Bound.mk t) (List.ext_getElem? fun s => ?_)
  by_cases hs : s ≤ t.fragments.length
  · exact (hat s hs).trans (getElem?_filled t fill hs).symm
  · have hge : t.slotCount ≤ s := Nat.lt_of_not_le hs
    rw [List.getElem?_eq_none (by omega), List.getElem?_eq_none (by simpa using hge)]

/-- The same content bound to all names is at every slot with a name. -/
theorem bindNames_fresh {t : Template ω} (h : t.WellFormed) (c : κ) :
    bindNames c t.names (fresh t) = (filled t fun _ => c, .ok ()) := by
  obtain ⟨bindings, hrun, hlen, hat⟩ := bindNames_ok h c t.names (List.replicate t.slotCount none)
    List.length_replicate (fun n hn => hn)
  rw [← eq_filled hlen fun s hs => (hat s).trans (holding_fresh h (fun _ => Iff.rfl) _ hs)]
  exact hrun

/-- So it is if it is bound slot by slot. -/
theorem ofContent_eq (t : Template ω) (c : κ) : ofContent t c = filled t fun _ => c := by
  have hlt : ∀ s ∈ (List.range t.slotCount).filter fun slot => (t.nameAt slot).isSome,
      s < (List.replicate t.slotCount (none : Option κ)).length := by
    intro s hs
    rw [List.length_replicate]
    exact List.mem_range.1 (List.mem_of_mem_filter hs)
  obtain ⟨bindings, n, hrun, hlen, hat⟩ := bindAt_ofNat c t _ 0 _ hlt
  have hrun' : ofContent t c = ⟨t, bindings⟩ := by
    unfold ofContent bindSlots fresh
    dsimp only
    rw [hrun]
  rw [hrun']
  refine eq_filled (hlen.trans List.length_replicate) fun s hs => ?_
  have hlt : s < t.slotCount := Nat.lt_succ_of_le hs
  rw [hat, List.getElem?_replicate, if_pos hlt, Template.holding]
  cases hn : t.nameAt s with
  | none => simp [hn]
  | some name => simp [hn, hlt]

end Bound
end Slots

namespace Bound

variable {ω : Type} [Wrapping ω (Tree ω)]

/-- Bind to each name the content that `fill` has for it, up to the first name that the template
does not have. -/
def bindEach {κ : Type} [Wrapping ω κ] (fill : String → κ) :
    List String → Bound ω κ → Bound ω κ × Except (Failure ω) Unit
  | [], b => (b, .ok ())
  | name :: rest, b =>
    match b.bindName name (fill name) with
    | (b, .error e) => (b, .error e)
    | (b, .ok ()) => bindEach fill rest b

/-- Content bound name by name is at the slots of these names; the others keep what they had. -/
theorem bindEach_ok {t : Template ω} (h : t.WellFormed) (fill : String → Tree ω) :
    ∀ (names : List String) (bindings : List (Option (Tree ω))),
      bindings.length = t.slotCount → (∀ n ∈ names, n ∈ t.names) →
      ∃ bindings', bindEach fill names ⟨t, bindings⟩ = (⟨t, bindings'⟩, .ok ()) ∧
        bindings'.length = t.slotCount ∧ ∀ s, bindings'[s]? =
          if (t.nameAt s).any (· ∈ names) then some (t.filling fill s) else bindings[s]? := by
  intro names
  induction names with
  | nil =>
    intro bindings hlen _
    refine ⟨bindings, rfl, hlen, fun s => ?_⟩
    cases t.nameAt s <;> rfl
  | cons name rest ih =>
    intro bindings hlen hnames
    obtain ⟨bindings₁, hbind, hlen₁, hat₁⟩ :=
      bindName_ok h hlen (hnames name List.mem_cons_self) fill
    obtain ⟨bindings', hrest, hlen', hat⟩ := ih bindings₁ hlen₁
      (fun n hn => hnames n (List.mem_cons_of_mem _ hn))
    refine ⟨bindings', ?_, hlen', fun s => ?_⟩
    · rw [bindEach, hbind]
      exact hrest
    · rw [hat, hat₁]
      exact holding_cons t fill name rest (bindings[·]?) s

variable {t : Template ω} {names : List String}

/-- A fresh bound template with content for each name has it at every named slot, under the wrap of
the slot, and nothing at the others. -/
theorem bindEach_fresh (h : t.WellFormed) (hnames : ∀ n, n ∈ names ↔ n ∈ t.names)
    (fill : String → Tree ω) : bindEach fill names (fresh t) = (filled t fill, .ok ()) := by
  obtain ⟨bindings, hrun, hlen, hat⟩ := bindEach_ok h fill names (List.replicate t.slotCount none)
    List.length_replicate (fun n hn => (hnames n).1 hn)
  rw [← eq_filled hlen fun s hs => (hat s).trans (holding_fresh h hnames fill hs)]
  exact hrun

/-- **A template with content bound to all its names writes its parts**, the holes filled. -/
theorem written_bindEach (h : t.WellFormed) (hnames : ∀ n, n ∈ names ↔ n ∈ t.names)
    (fill : String → Tree ω) :
    (bindEach fill names (fresh t)).2 = .ok () ∧
      Tree.written (bindEach fill names (fresh t)).1.toContent = Part.writtenAll fill t.parts := by
  rw [bindEach_fresh h hnames fill]
  exact ⟨rfl, Template.written_filled fill t fun _ => getElem?_filled t fill⟩

end Bound
end Stencil
