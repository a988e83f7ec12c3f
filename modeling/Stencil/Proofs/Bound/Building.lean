import Stencil.Proofs.Bound.Binding
import Stencil.Proofs.Content.Escaped

/-!
# From calls to bytes

A template is built by calls that add static bytes or a placeholder at its end, and content is bound
to some of its names.  A sink that takes all bytes then gets, in the order of the calls, what each
of them stands for: its bytes, or the content of its name under the wrap of that call.  At the first
call whose placeholder has no content the emission stops, and its result counts the bytes before.
How the template divides the calls into slots and fragments does not show.

Content that is emitted several times may write different bytes each time, as a script may go by the
answers of the sink.  So what a call brings is a relation.

## Main definitions

* `Edit.hole?`, `Edit.parts` — the placeholder and the parts that an edit adds.
* `Emission.Delivers` — what the sink took, and what stopped the emission.
* `Tree.Succeeds`, `Tree.Brings` — content that is emitted as a whole, and bytes of such an
  emission.
* `Part.Brought`, `Edit.Brings` — what parts and calls bring to the sink.

## Main results

* `Template.WellFormed.parts_edits` — calls add their parts in order.
* `Bound.emit_delivers` — a bound template brings its parts to the sink, up to the first hole
  without content.
* `Bound.emit_build` — what the calls bring to the sink.
-/

namespace Stencil

variable {σ ω : Type} {k : Sink σ} {held : σ → Bytes}

/-! ### Calls that build -/

namespace Edit

/-- Whether the edit adds something at the end of a template, and does nothing else. -/
def isBuild : Edit ω → Bool
  | .addStatic _ | .addText _ _ | .addPlaceholder _ _ => true
  | .setWrap _ _ | .rename _ _ _ | .transform _ _ => false

/-- The placeholder that the edit adds, with its wrap; a placeholder without a name is not added. -/
def hole? : Edit ω → Option (String × Option ω)
  | .addPlaceholder name wrap => if name.isEmpty then none else some (name, wrap)
  | .addStatic _ | .addText _ _ | .setWrap _ _ | .rename _ _ _ | .transform _ _ => none

/-- The parts that the edit adds. -/
def parts (e : Edit ω) : List (Part ω) :=
  match e.hole? with
  | some (name, wrap) => [.hole name wrap]
  | none => Part.bytes e.added

/-- Whether the edit adds no placeholder, or one with a name out of `names`. -/
def isFilled (names : List String) (e : Edit ω) : Bool := e.hole?.all fun p => names.contains p.1

theorem hole?_of_mem_parts {e : Edit ω} {name : String} {wrap : Option ω}
    (h : .hole name wrap ∈ e.parts) : e.hole? = some (name, wrap) := by
  unfold parts at h
  split at h
  · next hhole =>
    cases List.mem_singleton.1 h
    exact hhole
  · obtain ⟨b, -, hb⟩ := List.mem_map.1 h
    cases hb

end Edit

namespace Template

variable {t : Template ω}

/-- A call adds its parts behind all others. -/
theorem WellFormed.parts_edit (h : t.WellFormed) {e : Edit ω} (he : e.isBuild = true) :
    (t.edit e).1.parts = t.parts ++ e.parts := by
  cases e with
  | addStatic data => exact h.parts_addStatic data
  | addText text encoding =>
    simp only [Template.edit, Template.addText, Edit.parts, Edit.hole?, Edit.added]
    cases encoding.encode text with
    | ok data => exact h.parts_addStatic data
    | error f => exact (List.append_nil _).symm
  | addPlaceholder name wrap =>
    by_cases hname : name.isEmpty
    · -- a placeholder without a name is refused
      have ht : t.addPlaceholder name wrap = .error .emptyName := by
        rw [Template.addPlaceholder, if_pos hname]
      have hparts : (Edit.addPlaceholder name wrap).parts = [] := by
        simp [Edit.parts, Edit.hole?, Edit.added, hname]
      rw [Template.edit, ht, hparts]
      exact (List.append_nil _).symm
    · have ht : t.addPlaceholder name wrap = .ok (t.withRoom.nameLast name wrap) :=
        addPlaceholder_eq_ok_iff.2 ⟨mt String.isEmpty_iff.2 hname, rfl⟩
      have hparts : (Edit.addPlaceholder name wrap).parts = [.hole name wrap] := by
        simp [Edit.parts, Edit.hole?, hname]
      rw [Template.edit, ht, hparts]
      exact h.parts_addPlaceholder ht
  | setWrap name wrap => cases he
  | rename current new merge => cases he
  | transform f merge => cases he

/-- Calls add their parts in order. -/
theorem WellFormed.parts_edits (es : List (Edit ω)) : ∀ {t : Template ω}, t.WellFormed →
    (∀ e ∈ es, e.isBuild = true) → (t.edits es).parts = t.parts ++ es.flatMap Edit.parts := by
  induction es with
  | nil => exact fun _ _ => (List.append_nil _).symm
  | cons e es ih =>
    intro t h hes
    have hfirst := h.parts_edit (hes e List.mem_cons_self)
    have hrest := ih (h.edit e) fun e' he' => hes e' (List.mem_cons_of_mem _ he')
    rw [edits_cons, hrest, hfirst, List.flatMap_cons, List.append_assoc]

/-- A slot with a name is a hole among the parts. -/
theorem WellFormed.hole_mem_parts (h : t.WellFormed) {slot : Nat} {name : String}
    (hname : t.nameAt slot = some name) : .hole name (t.wrapAt slot) ∈ t.parts := by
  have hlt : slot < t.slotCount := h.lt_slotCount hname
  have hhole : (name, t.wrapAt slot) ∈ t.parts.filterMap Part.hole? := by
    rw [← holes_eq_filterMap_parts]
    exact List.mem_filterMap.2 ⟨slot, List.mem_range.2 hlt, by rw [hname]; rfl⟩
  obtain ⟨p, hp, hpart⟩ := List.mem_filterMap.1 hhole
  cases p with
  | byte b => cases hpart
  | hole name' wrap' =>
    cases hpart
    exact hp

end Template

/-! ### What an emission delivers -/

/-- The result of an emission of `count` bytes that came to its end, or was stopped by a cause. -/
def EmitResult.ended (count : Int) : Option EmitCause → EmitResult
  | none => .done count
  | some cause => .stopped count cause

namespace Emission

/-- From the state `s` on the sink took `data`, which the result counts; nothing stopped the
emission, or a cause did. -/
structure Delivers (held : σ → Bytes) (s : σ) (e : Emission σ EmitResult) (data : Bytes)
    (stop : Option EmitCause) : Prop where
  /-- The sink took the bytes. -/
  sink : held e.sink = held s ++ data
  /-- The result counts them. -/
  outcome : e.outcome = .ok (.ended data.length stop)

variable {s : σ} {e : Emission σ EmitResult} {next : σ → Runs → Emission σ EmitResult}
  {data more : Bytes} {stop : Option EmitCause} {cause : EmitCause}

theorem delivers_nothing (s : σ) (runs : Runs) : (nothing s runs).Delivers held s [] none :=
  ⟨(List.append_nil _).symm, rfl⟩

theorem delivers_stopped (s : σ) (runs : Runs) (cause : EmitCause) :
    Delivers held s ⟨.ok (.stopped 0 cause), s, runs⟩ [] (some cause) :=
  ⟨(List.append_nil _).symm, rfl⟩

/-- A sink that always goes on takes all bytes. -/
theorem delivers_bytes (hk : k.Honours held) (hw : k.Willing) (data : Bytes) (s : σ)
    (runs : Runs) : (bytes k data s runs).Delivers held s data none := by
  obtain ⟨s', hwrite, hheld⟩ := hk.writeAll_of_willing hw data s
  unfold bytes
  rw [hwrite]
  exact ⟨hheld, rfl⟩

theorem Delivers.settled (h : e.Delivers held s data stop) :
    e.settled.Delivers held s data stop := by
  rw [settled_eq_map]
  obtain ⟨outcome, s', runs⟩ := e
  cases h.outcome
  refine ⟨h.sink, ?_⟩
  cases stop <;> simp [map, Except.map, EmitResult.ended, EmitResult.andThen, EmitResult.done,
    EmitResult.stopped, EmitResult.failed]

/-- An emission that came to its end is followed by the next one. -/
theorem Delivers.followedBy (h : e.Delivers held s data none)
    (hnext : (next e.sink e.runs).Delivers held e.sink more stop) :
    (e.followedBy next).Delivers held s (data ++ more) stop := by
  rw [followedBy_of_done h.outcome rfl]
  refine ⟨?_, ?_⟩
  · exact hnext.sink.trans (by rw [h.sink, List.append_assoc])
  · rw [map, hnext.outcome]
    cases stop <;> simp [Except.map, EmitResult.ended, EmitResult.andThen, EmitResult.done,
      EmitResult.stopped, EmitResult.failed]

/-- An emission that was stopped is followed by nothing. -/
theorem Delivers.stopped_followedBy (h : e.Delivers held s data (some cause)) :
    (e.followedBy next).Delivers held s data (some cause) := by
  rw [followedBy_of_stopped h.outcome rfl]
  exact h

end Emission

namespace Tree

/-- The content is emitted as a whole in every state of the sink, and its result counts what it
wrote. -/
def Succeeds (k : Sink σ) (held : σ → Bytes) (c : Tree ω) : Prop :=
  ∀ s runs, ∃ data, (Tree.emit c k s runs).Delivers held s data none

/-- In some state of the sink the content is emitted as these bytes. -/
def Brings (k : Sink σ) (held : σ → Bytes) (c : Tree ω) (data : Bytes) : Prop :=
  ∃ s runs, (Tree.emit c k s runs).Delivers held s data none

/-- Plain content that a buffer gets as a whole is emitted as the same bytes to a sink that always
goes on. -/
theorem delivers_of_written {c : Tree ω} (hc : c.IsPlain) (hk : k.Honours held) (hw : k.Willing)
    {data : Bytes} (hdata : Tree.written c = .all data) (s : σ) (runs : Runs) :
    (Tree.emit c k s runs).Delivers held s data none := by
  obtain ⟨hheld, houtcome⟩ := (Tree.emit_counts_prefix hc hk s runs).2 hw
  have hwrites := Tree.emit_writes c [] runs
  rw [hdata] at hwrites
  have hsink : (Tree.emit c Sink.buffer [] runs).sink = data := hwrites.sink
  have hsucceeded := hwrites.succeeded
  unfold Emission.succeeded at hsucceeded
  rw [← houtcome] at hsucceeded
  rw [hsink] at hheld
  cases hr : (Tree.emit c k s runs).outcome with
  | error f =>
    rw [hr] at hsucceeded
    cases hsucceeded
  | ok r =>
    obtain ⟨taken, htaken, hcount, -⟩ := Tree.emit_accounts hc hk.honest s runs r hr
    have hsame := List.append_cancel_left (htaken.symm.trans hheld)
    rw [hr] at hsucceeded
    obtain ⟨count, error⟩ := r
    cases Option.isNone_iff_eq_none.1 hsucceeded
    cases hsame
    cases hcount
    exact ⟨hheld, hr⟩

end Tree

/-! ### What slots and parts bring -/

/-- The emission of a slot. -/
def emitSlot (t : Template ω) (slot : Nat) (binding : Option (Tree ω)) (k : Sink σ) (s : σ)
    (runs : Runs) : Emission σ EmitResult :=
  match binding with
  | none => emitUnbound t.name (t.nameAt slot) s runs
  | some c => (Tree.emit c k s runs).settled

theorem emitSlots_cons (t : Template ω) (slot : Nat) (binding : Option (Tree ω))
    (rest : List (Option (Tree ω))) (k : Sink σ) (s : σ) (runs : Runs) :
    emitSlots t slot (binding :: rest) k s runs =
      (emitSlot t slot binding k s runs).thenFragment k t.fragments[slot]? fun s runs =>
        emitSlots t (slot + 1) rest k s runs := by
  cases binding <;> rfl

section Parts

variable [Wrapping ω (Tree ω)] {fill : String → Tree ω} {names : List String} {title : String}

/-- What parts of the template `title` bring to the sink if the holes with names out of `names` have
content, and the cause that stops the emission at a hole with another name. -/
inductive Part.Brought (k : Sink σ) (held : σ → Bytes) (fill : String → Tree ω)
    (names : List String) (title : String) : List (Part ω) → Bytes → Option EmitCause → Prop where
  /-- No parts bring nothing. -/
  | nil : Brought k held fill names title [] [] none
  /-- A byte comes before what the other parts bring. -/
  | byte (b : UInt8) {ps : List (Part ω)} {data : Bytes} {stop : Option EmitCause}
    (h : Brought k held fill names title ps data stop) :
    Brought k held fill names title (.byte b :: ps) (b :: data) stop
  /-- So does the content in a hole. -/
  | filled {name : String} {wrap : Option ω} {ps : List (Part ω)} {data more : Bytes}
    {stop : Option EmitCause} (hname : name ∈ names)
    (hc : (Tree.under wrap (fill name)).Brings k held data)
    (h : Brought k held fill names title ps more stop) :
    Brought k held fill names title (.hole name wrap :: ps) (data ++ more) stop
  /-- A hole without content stops. -/
  | unfilled {name : String} (wrap : Option ω) (ps : List (Part ω)) (hname : name ∉ names) :
    Brought k held fill names title (.hole name wrap :: ps) [] (some (.unbound name title))

namespace Part.Brought

variable {ps qs : List (Part ω)} {data more : Bytes} {stop : Option EmitCause} {cause : EmitCause}

theorem append (h : Part.Brought k held fill names title ps data none)
    (h' : Part.Brought k held fill names title qs more stop) :
    Part.Brought k held fill names title (ps ++ qs) (data ++ more) stop := by
  generalize hstop : none = stop' at h
  induction h with
  | nil => exact h'
  | byte b h ih => exact (ih hstop).byte b
  | filled hname hc h ih =>
    rw [List.append_assoc]
    exact (ih hstop).filled hname hc
  | unfilled wrap ps hname => cases hstop

theorem append_of_stopped (h : Part.Brought k held fill names title ps data (some cause))
    (qs : List (Part ω)) : Part.Brought k held fill names title (ps ++ qs) data (some cause) := by
  generalize hstop : some cause = stop at h
  induction h with
  | nil => cases hstop
  | byte b h ih => exact (ih hstop).byte b
  | filled hname hc h ih => exact (ih hstop).filled hname hc
  | unfilled wrap ps hname => exact .unfilled wrap (ps ++ qs) hname

theorem bytes (f : Bytes) : Part.Brought k held fill names title (Part.bytes f) f none := by
  induction f with
  | nil => exact .nil
  | cons b f ih => exact ih.byte b

/-- Bytes that come first are brought first. -/
theorem of_bytes_append (f : Bytes) :
    ∀ {data : Bytes}, Part.Brought k held fill names title (Part.bytes f ++ ps) data stop →
      ∃ more, data = f ++ more ∧ Part.Brought k held fill names title ps more stop := by
  induction f with
  | nil => exact fun h => ⟨_, rfl, h⟩
  | cons b f ih =>
    intro data h
    cases h with
    | byte _ h =>
      obtain ⟨more, rfl, hmore⟩ := ih h
      exact ⟨more, rfl, hmore⟩

end Part.Brought

/-- The content at a slot if names out of `names` have content. -/
def Template.fillingOf (t : Template ω) (fill : String → Tree ω) (names : List String)
    (slot : Nat) : Option (Tree ω) :=
  if (t.nameAt slot).any (· ∈ names) then t.filling fill slot else none

variable {t : Template ω}

/-- A slot brings its parts. -/
theorem emitSlot_delivers {slot : Nat}
    (hfill : ∀ name, t.nameAt slot = some name → name ∈ names →
      (Tree.under (t.wrapAt slot) (fill name)).Succeeds k held) (s : σ) (runs : Runs) :
    ∃ data stop, Part.Brought k held fill names t.name (t.slotParts slot) data stop ∧
      (emitSlot t slot (t.fillingOf fill names slot) k s runs).Delivers held s data stop := by
  unfold Template.slotParts Template.fillingOf Template.filling
  cases hname : t.nameAt slot with
  | none =>
    refine ⟨[], none, .nil, ?_⟩
    simp only [emitSlot, hname, emitUnbound, Option.any_none, Bool.false_eq_true, if_false]
    exact Emission.delivers_nothing s runs
  | some name =>
    by_cases hmem : name ∈ names
    · obtain ⟨data, hdata⟩ := hfill name hname hmem s runs
      have hbrought : Part.Brought k held fill names t.name [.hole name (t.wrapAt slot)]
          (data ++ []) none := .filled hmem ⟨s, runs, hdata⟩ .nil
      rw [List.append_nil] at hbrought
      refine ⟨data, none, hbrought, ?_⟩
      simp only [Option.any_some, hmem, decide_true, if_true, Option.map_some, emitSlot]
      exact hdata.settled
    · refine ⟨[], _, .unfilled _ [] hmem, ?_⟩
      simp only [Option.any_some, hmem, decide_false, Bool.false_eq_true, if_false, emitSlot, hname,
        emitUnbound]
      exact Emission.delivers_stopped s runs _

/-- The slots from one on bring their parts and the fragments between them, up to the first hole
without content. -/
theorem emitSlots_delivers (hk : k.Honours held) (hw : k.Willing)
    (hfill : ∀ slot name, t.nameAt slot = some name → name ∈ names →
      (Tree.under (t.wrapAt slot) (fill name)).Succeeds k held) :
    ∀ (fragments : List Bytes) (slot : Nat) (bindings : List (Option (Tree ω))) (s : σ)
      (runs : Runs), t.fragments.drop slot = fragments →
      (∀ i, i ≤ fragments.length → bindings[i]? = some (t.fillingOf fill names (slot + i))) →
      ∃ data stop,
        Part.Brought k held fill names t.name (interleave t.slotParts slot fragments) data stop ∧
          (emitSlots t slot bindings k s runs).Delivers held s data stop := by
  intro fragments
  induction fragments with
  | nil =>
    intro slot bindings s runs hdrop hbindings
    cases bindings with
    | nil => cases hbindings 0 (Nat.le_refl 0)
    | cons binding rest =>
      have hfirst : binding = t.fillingOf fill names slot :=
        Option.some.inj (hbindings 0 (Nat.le_refl 0))
      -- behind the last fragment one slot is left
      have hnone : t.fragments[slot]? = none :=
        List.getElem?_eq_none (List.drop_eq_nil_iff.1 hdrop)
      rw [emitSlots_cons, hnone, hfirst]
      exact emitSlot_delivers (hfill slot) s runs
  | cons f fragments ih =>
    intro slot bindings s runs hdrop hbindings
    cases bindings with
    | nil => cases hbindings 0 (Nat.zero_le _)
    | cons binding rest =>
      have hfirst : binding = t.fillingOf fill names slot :=
        Option.some.inj (hbindings 0 (Nat.zero_le _))
      have hsome : t.fragments[slot]? = some f := by
        rw [← List.head?_drop, hdrop]
        rfl
      have hdrop' : t.fragments.drop (slot + 1) = fragments := by
        rw [← List.tail_drop, hdrop]
        rfl
      obtain ⟨data, stop, hbrought, hslot⟩ := emitSlot_delivers (hfill slot) s runs
      rw [emitSlots_cons, hsome, hfirst, interleave_cons, Emission.thenFragment]
      cases stop with
      | some cause =>
        exact ⟨data, some cause, hbrought.append_of_stopped _,
          hslot.stopped_followedBy.stopped_followedBy⟩
      | none =>
        have hfragment := hslot.followedBy (Emission.delivers_bytes hk hw f _ _)
        obtain ⟨more, stop, hbrought', hmore⟩ := ih (slot + 1) rest _ _ hdrop' fun i hi => by
          rw [Nat.add_assoc, Nat.add_comm 1]
          exact hbindings (i + 1) (Nat.succ_le_succ hi)
        refine ⟨data ++ (f ++ more), stop,
          hbrought.append ((Part.Brought.bytes f).append hbrought'), ?_⟩
        rw [← List.append_assoc]
        exact hfragment.followedBy hmore

/-- **A bound template brings its parts to the sink**, up to the first hole without content. -/
theorem Bound.emit_delivers (h : t.WellFormed) (hk : k.Honours held) (hw : k.Willing)
    (hnames : ∀ n ∈ names, n ∈ t.names)
    (hfill : ∀ name wrap, .hole name wrap ∈ t.parts → name ∈ names →
      (Tree.under wrap (fill name)).Succeeds k held) (s : σ) (runs : Runs) :
    (bindEach fill names (fresh t)).2 = .ok () ∧
      ∃ data stop, Part.Brought k held fill names t.name t.parts data stop ∧
        (Tree.emit (bindEach fill names (fresh t)).1.toContent k s runs).Delivers held s data
          stop := by
  obtain ⟨bindings, hrun, -, hat⟩ :=
    bindEach_ok h fill names (List.replicate t.slotCount none) List.length_replicate hnames
  have hbindings (i : Nat) (hi : i ≤ t.fragments.length) :
      bindings[i]? = some (t.fillingOf fill names (0 + i)) := by
    have hlt : i < t.slotCount := Nat.lt_succ_of_le hi
    rw [hat, List.getElem?_replicate, if_pos hlt, Nat.zero_add, Template.fillingOf]
    split <;> rfl
  have hrun' : bindEach fill names (fresh t) = (⟨t, bindings⟩, .ok ()) := hrun
  rw [hrun']
  refine ⟨rfl, emitSlots_delivers hk hw (fun slot name hname => ?_) t.fragments 0 bindings s runs
    rfl hbindings⟩
  exact hfill name _ (h.hole_mem_parts hname)

/-! ### What calls bring -/

/-- What a call brings to the sink: the bytes that it adds, or the content of the name in it under
the wrap in it. -/
def Edit.Brings (k : Sink σ) (held : σ → Bytes) (fill : String → Tree ω) (e : Edit ω)
    (data : Bytes) : Prop :=
  match e.hole? with
  | some (name, wrap) => (Tree.under wrap (fill name)).Brings k held data
  | none => data = e.added

/-- The cause that stops the emission of a template at the first placeholder that one of the calls
adds and that has no content. -/
def Edit.stop? (title : String) (names : List String) (es : List (Edit ω)) : Option EmitCause :=
  ((es.find? fun e => !e.isFilled names).bind Edit.hole?).map fun p => .unbound p.1 title

/-- What the parts of calls bring is brought call by call, up to the first that is not filled. -/
theorem Part.Brought.calls (es : List (Edit ω)) : ∀ {data : Bytes} {stop : Option EmitCause},
    Part.Brought k held fill names title (es.flatMap Edit.parts) data stop →
      stop = Edit.stop? title names es ∧
        ∃ pieces,
          List.Forall₂ (Edit.Brings k held fill) (es.takeWhile (Edit.isFilled names)) pieces ∧
          data = pieces.flatten := by
  induction es with
  | nil =>
    intro data stop h
    cases h
    exact ⟨rfl, [], .nil, rfl⟩
  | cons e es ih =>
    intro data stop h
    rw [List.flatMap_cons, Edit.parts] at h
    cases hhole : e.hole? with
    | none =>
      have hfilled : e.isFilled names = true := by rw [Edit.isFilled, hhole, Option.all_none]
      rw [hhole] at h
      obtain ⟨more, rfl, hmore⟩ := Part.Brought.of_bytes_append e.added h
      obtain ⟨hstop, pieces, hpieces, rfl⟩ := ih hmore
      have hfirst : e.Brings k held fill e.added := by
        rw [Edit.Brings, hhole]
      refine ⟨?_, e.added :: pieces, ?_, rfl⟩
      · rw [hstop, Edit.stop?, Edit.stop?, List.find?_cons_of_neg (by simp [hfilled])]
      · rw [List.takeWhile_cons_of_pos hfilled]
        exact .cons hfirst hpieces
    | some p =>
      obtain ⟨name, wrap⟩ := p
      rw [hhole] at h
      cases h with
      | @filled _ _ _ content _ _ hname hc hmore =>
        have hfilled : e.isFilled names = true := by
          rw [Edit.isFilled, hhole, Option.all_some, List.contains_iff_mem]
          exact hname
        obtain ⟨hstop, pieces, hpieces, rfl⟩ := ih hmore
        have hfirst : e.Brings k held fill content := by
          rw [Edit.Brings, hhole]
          exact hc
        refine ⟨?_, content :: pieces, ?_, rfl⟩
        · rw [hstop, Edit.stop?, Edit.stop?, List.find?_cons_of_neg (by simp [hfilled])]
        · rw [List.takeWhile_cons_of_pos hfilled]
          exact .cons hfirst hpieces
      | unfilled _ _ hname =>
        have hfilled : ¬e.isFilled names = true := by
          rw [Edit.isFilled, hhole, Option.all_some, List.contains_iff_mem]
          exact hname
        refine ⟨?_, [], ?_, rfl⟩
        · rw [Edit.stop?, List.find?_cons_of_pos (by simp [hfilled]), Option.bind_some, hhole]
          rfl
        · rw [List.takeWhile_cons_of_neg hfilled]
          exact .nil

/-- **The calls that build a template say what it brings to a sink.**  Let a template be built by
any calls, and let some of its names be bound to content that, under the wraps of the calls, is
emitted as a whole.  Emitted to a sink that always goes on, the bound template writes what each call
brings, in the order of the calls.  It stops at the first call whose placeholder has no content,
with the name of that, or comes to its end if there is none; in either case the result counts all
bytes that were written. -/
theorem Bound.emit_build (hk : k.Honours held) (hw : k.Willing) (title : String)
    {es : List (Edit ω)} (hes : ∀ e ∈ es, e.isBuild = true)
    (hnames : ∀ n ∈ names, n ∈ ((Template.blank title).edits es).names)
    (hfill : ∀ e ∈ es, ∀ name wrap, e.hole? = some (name, wrap) → name ∈ names →
      (Tree.under wrap (fill name)).Succeeds k held) (s : σ) (runs : Runs) :
    let r := bindEach fill names (fresh ((Template.blank title).edits es))
    let e := Tree.emit r.1.toContent k s runs
    r.2 = .ok () ∧
      ∃ pieces, List.Forall₂ (Edit.Brings k held fill) (es.takeWhile (Edit.isFilled names)) pieces ∧
        held e.sink = held s ++ pieces.flatten ∧
        e.outcome = .ok (.ended pieces.flatten.length (Edit.stop? title names es)) := by
  intro r e
  have hblank := Template.wellFormed_blank (ω := ω) title
  have hparts : ((Template.blank title).edits es).parts = es.flatMap Edit.parts :=
    hblank.parts_edits es hes
  have hsucceeds (name : String) (wrap : Option ω)
      (hpart : .hole name wrap ∈ ((Template.blank title).edits es).parts) (hname : name ∈ names) :
      (Tree.under wrap (fill name)).Succeeds k held := by
    rw [hparts] at hpart
    obtain ⟨call, hcall, hhole⟩ := List.mem_flatMap.1 hpart
    exact hfill call hcall name wrap (Edit.hole?_of_mem_parts hhole) hname
  obtain ⟨hok, data, stop, hbrought, hdelivers⟩ :=
    Bound.emit_delivers (hblank.edits es) hk hw hnames hsucceeds s runs
  rw [hparts, Template.name_edits, Template.blank_name] at hbrought
  obtain ⟨rfl, pieces, hpieces, rfl⟩ := hbrought.calls es
  exact ⟨hok, pieces, hpieces, hdelivers.sink, hdelivers.outcome⟩

end Parts

/-- Calls that add nothing among others, and a name that comes twice in a row. -/
def mixedCalls : List (Edit (Wrap Empty)) :=
  [.addStatic [], .addPlaceholder "a" none, .addPlaceholder "a" (some .html), .addText "" .standard,
    .addStatic [45], .addPlaceholder "b" none, .addStatic [46], .addPlaceholder "c" none,
    .addStatic [47]]

/-- Content for the names of these calls. -/
def mixedContent (name : String) : Tree (Wrap Empty) := .data (if name = "a" then [60] else [98])

/-- The emission stops at the last placeholder. -/
theorem Bound.emit_build_mixedCalls :
    let r := bindEach mixedContent ["b", "a"] (fresh ((Template.blank "t").edits mixedCalls))
    let e := Tree.emit r.1.toContent (SinkStyle.short 2).sink .empty []
    r.2 = .ok () ∧ e.sink.held = Utf8.encode "<&lt;-b.".toList ∧
      e.outcome = .ok (.stopped 8 (.unbound "c" "t")) := by
  intro r e
  have hhonours := SinkStyle.honours (.short 2) rfl
  have hwilling := SinkStyle.short_willing 1
  have hplain (bytes : Bytes) :
      Tree.Succeeds (ω := Wrap Empty) (SinkStyle.short 2).sink Recording.held (.data bytes) :=
    fun s runs => ⟨bytes, Emission.delivers_bytes hhonours hwilling bytes s runs⟩
  have hescaped : Tree.Succeeds (ω := Wrap Empty) (SinkStyle.short 2).sink Recording.held
      (.escaper Escape.html .standard (.data [60])) := fun s runs =>
    ⟨Utf8.encode "&lt;".toList, Tree.delivers_of_written (.escaper _ _ (.data _)) hhonours hwilling
      (by decide +kernel) s runs⟩
  have hfill : ∀ e ∈ mixedCalls, ∀ name wrap, e.hole? = some (name, wrap) → name ∈ ["b", "a"] →
      (Tree.under wrap (mixedContent name)).Succeeds (SinkStyle.short 2).sink Recording.held := by
    intro e he name wrap hhole hname
    simp only [mixedCalls, List.mem_cons, List.not_mem_nil, or_false] at he
    rcases he with rfl | rfl | rfl | rfl | rfl | rfl | rfl | rfl | rfl <;> cases hhole
    · exact hplain [60]
    · exact hescaped
    · exact hplain [98]
    · exact hplain [98]
  obtain ⟨hok, pieces, -, hheld, houtcome⟩ := Bound.emit_build hhonours hwilling "t"
    (by decide +kernel) (by decide +kernel) hfill .empty []
  have hsink : e.sink.held = Utf8.encode "<&lt;-b.".toList := by decide +kernel
  have hpieces : pieces.flatten = Utf8.encode "<&lt;-b.".toList := hheld.symm.trans hsink
  refine ⟨hok, hsink, ?_⟩
  rw [houtcome, hpieces]
  rfl

end Stencil
