import Stencil.Proofs.Content.Shadow

/-!
# What content has planned

Content without scripts does not look at its sink, except that it stops where the sink does.  So
what it does is settled before: a row of byte strings that it writes one after the other, and how it
ends once all of them are written.  The plan of escaped content is that of the content inside, read
by the codec piece by piece, escaped and written anew.

## Main definitions

* `Plan`, `Plan.Ending` — the byte strings to write, and how it ends after them.
* `Plan.Ending.outcome` — what comes of an ending.
* `Plan.escape` — a plan on its way through an escape.
* `Content.plan` — the plan of content.
* `Sink.Declines`, `Sink.Halts` — the faults by which a sink can stop a plan, and what comes of it.
* `Emission.ofPlan` — a plan carried out.

## Main results

* `Emission.ofPlan_andThen` — plans in a row are carried out one after the other.
* `Emission.ofEscaping_ofPlan` — a plan through a sink that escapes.
* `Emission.outcome_ofPlan` — a plan ends as it should, or the sink stops it.
* `Tree.emit_eq_ofPlan` — content without scripts does what it has planned.
-/

namespace Stencil

variable {σ ω : Type}

/-! ### Plans -/

/-- How content ends after it has written all that it writes. -/
inductive Plan.Ending where
  /-- Without an error. -/
  | whole
  /-- With an error. -/
  | stopped (cause : EmitCause)
  /-- By a fault. -/
  | fault (f : Fault)

/-- What content does if its sink takes all. -/
structure Plan where
  /-- The byte strings that it writes. -/
  pieces : List Bytes
  /-- How it ends then. -/
  ending : Plan.Ending

namespace Plan

/-- The ending by a fault of the sink: an error if it refused data. -/
def Ending.ofFault (f : Fault) : Ending := if f.isRefusal then .stopped (.refused f) else .fault f

theorem Ending.stopped_ne_whole (cause : EmitCause) : Ending.stopped cause ≠ .whole := nofun

theorem Ending.fault_ne_whole (f : Fault) : Ending.fault f ≠ .whole := nofun

theorem Ending.ofFault_ne_whole (f : Fault) : Ending.ofFault f ≠ .whole := by
  unfold ofFault
  split
  · exact stopped_ne_whole _
  · exact fault_ne_whole f

/-- What comes of it after `count` bytes. -/
def Ending.outcome (count : Int) : Ending → Except Fault EmitResult
  | .whole => .ok (.done count)
  | .stopped cause => .ok (.stopped count cause)
  | .fault f => .error f

/-- What was counted before is counted, too. -/
theorem Ending.map_outcome (ending : Ending) (n m : Int) :
    (ending.outcome m).map (EmitResult.done n).andThen = ending.outcome (n + m) := by
  cases ending <;> rfl

/-- Nothing to do. -/
def nothing : Plan := ⟨[], .whole⟩

/-- An end at once. -/
def ended (ending : Ending) : Plan := ⟨[], ending⟩

/-- A byte string to write. -/
def piece (data : Bytes) : Plan := ⟨[data], .whole⟩

/-- A byte string to write, unless it is empty. -/
def somePiece (data : Bytes) : Plan := if data.isEmpty then nothing else piece data

/-- A plan with a byte string in front. -/
def cons (data : Bytes) (p : Plan) : Plan := ⟨data :: p.pieces, p.ending⟩

/-- A plan, and if nothing stops it another one. -/
def andThen (p next : Plan) : Plan :=
  match p.ending with
  | .whole => ⟨p.pieces ++ next.pieces, next.ending⟩
  | _ => p

/-- After a plan that comes to its end the next one tells the ending. -/
theorem ending_andThen_of_whole {p : Plan} (h : p.ending = .whole) (next : Plan) :
    (p.andThen next).ending = next.ending := by
  rw [andThen, h]

/-- A plan that does not come to its end tells the ending. -/
theorem ending_andThen_of_ne {p : Plan} (h : p.ending ≠ .whole) (next : Plan) :
    (p.andThen next).ending = p.ending := by
  obtain ⟨pieces, ending⟩ := p
  cases ending with
  | whole => exact absurd rfl h
  | stopped cause => rfl
  | fault f => rfl

/-- The plan of a slot, followed by the fragment after it and what comes then; after the last slot
comes none. -/
def thenFragment (p : Plan) (fragment : Option Bytes) (next : Plan) : Plan :=
  match fragment with
  | none => p
  | some f => (p.andThen (piece f)).andThen next

/-- After a slot that comes to its end, and a fragment, what comes then tells the ending. -/
theorem ending_thenFragment_of_whole {p : Plan} (h : p.ending = .whole) (f : Bytes)
    (next : Plan) : (p.thenFragment (some f) next).ending = next.ending := by
  have hfragment : (p.andThen (piece f)).ending = .whole := ending_andThen_of_whole h _
  exact ending_andThen_of_whole hfragment next

/-- A slot that does not come to its end tells the ending. -/
theorem ending_thenFragment_of_ne {p : Plan} (h : p.ending ≠ .whole) (fragment : Option Bytes)
    (next : Plan) : (p.thenFragment fragment next).ending = p.ending := by
  cases fragment with
  | none => rfl
  | some f =>
    have hfragment : (p.andThen (piece f)).ending = p.ending := ending_andThen_of_ne h _
    exact (ending_andThen_of_ne (hfragment ▸ h) next).trans hfragment

/-- The plan of a slot without content: an error if the slot has a name. -/
def unbound (template : String) (name : Option String) : Plan :=
  match name with
  | none => nothing
  | some name => ended (.stopped (.unbound name template))

/-- The ending after the codec, too, was asked whether all is read. -/
def Ending.after (codec : Codec) (st : Codec.State) : Ending → Ending
  | .whole =>
    match codec.finish st with
    | .ok () => .whole
    | .error f => if f.kind.isOfValue then .stopped (.refused f) else .fault f
  | ending => ending

/-- A plan on its way through an escape: of each byte string the codec reads a text, which is
escaped and written anew.  Where one of these fails, it ends as if the sink had given up. -/
def escape (escape_ : Escape) (codec : Codec) (ending : Ending) :
    (pieces : List Bytes) → Codec.State → Plan
  | [], st => ended (ending.after codec st)
  | [] :: rest, st => escape escape_ codec ending rest st
  | (b :: data) :: rest, st =>
    match codec.feed st (b :: data) with
    | (.error f, _) => ended (.ofFault f)
    -- no character is complete, so nothing is written
    | (.ok [], st) => escape escape_ codec ending rest st
    | (.ok (p :: text), st) =>
      match escape_.run (p :: text) with
      | .error f => ended (.ofFault f)
      | .ok escaped =>
        match codec.encode escaped with
        | .error f => ended (.ofFault f)
        | .ok bytes => cons bytes (escape escape_ codec ending rest st)

end Plan

/-! ### The plan of content -/

section Content

variable [DigitLimit]

mutual

/-- The plan of content; scripts, which look at their sink, have none. -/
def Content.plan : Content ω Empty → Plan
  | .empty => .nothing
  | .data data => .piece data
  | .print value encoding =>
    match value.printed encoding with
    | .ok data => .piece data
    | .error f => .ended (.fault f)
  | .format format values encoding =>
    match formatted format values encoding with
    | .ok (.ok data) => .piece data
    | .ok (.error cause) => .ended (.stopped cause)
    | .error f => .ended (.fault f)
  | .generator _ _ => .nothing
  | .brackets before inner after =>
    ((Plan.somePiece before).andThen inner.plan).andThen (.somePiece after)
  | .escaper escape encoding inner =>
    match encoding.codec with
    | .ok codec => .escape escape codec inner.plan.ending inner.plan.pieces codec.start
    | .error f => .ended (.fault f)
  | .bound template bindings => slotsPlan template 0 bindings
  | .shared ref => nomatch ref
  termination_by structural c => c

/-- The plan of a template's slots from `slot` on, with the given bindings. -/
def slotsPlan : Template ω → (slot : Nat) → (bindings : List (Option (Content ω Empty))) → Plan
  | _, _, [] => .ended (.fault .slotOutOfRange)
  | t, slot, none :: rest =>
    (Plan.unbound t.name (t.nameAt slot)).thenFragment t.fragments[slot]?
      (slotsPlan t (slot + 1) rest)
  | t, slot, some c :: rest => c.plan.thenFragment t.fragments[slot]? (slotsPlan t (slot + 1) rest)
  termination_by structural _ _ bindings => bindings

end

end Content

/-! ### Emissions in a row -/

namespace EmitResult

/-- The error of a result, if it has one, carries the count of the result. -/
def IsSettled (r : EmitResult) : Prop := ∀ e, r.error = some e → e.count = r.count

theorem isSettled_done (n : Int) : (done n).IsSettled := nofun

theorem isSettled_failed (n : Int) (e : EmitError) : (failed n e).IsSettled := by
  intro e' he
  cases he
  rfl

theorem isSettled_stopped (n : Int) (cause : EmitCause) : (stopped n cause).IsSettled := by
  intro e he
  cases he
  rfl

theorem isSettled_andThen (r next : EmitResult) : (r.andThen next).IsSettled := by
  unfold andThen
  split
  · exact isSettled_done _
  · exact isSettled_failed _ _

theorem done_zero_andThen {r : EmitResult} (h : r.IsSettled) : (done 0).andThen r = r := by
  obtain ⟨count, _ | ⟨cause, n⟩⟩ := r
  · exact congrArg done (Int.zero_add count)
  · cases h _ rfl
    simp [andThen, failed, done]

theorem andThen_assoc (r r' r'' : EmitResult) :
    (r.andThen r').andThen r'' = r.andThen (r'.andThen r'') := by
  have hcount : (r.andThen r').count + r''.count = r.count + (r'.count + r''.count) := by
    rw [count_andThen, Int.add_assoc]
  obtain ⟨count, _ | e⟩ := r''
  · exact congrArg done hcount
  · exact congrArg (failed · e) hcount

end EmitResult

namespace Emission

/-- Emissions in a row may be grouped in either way. -/
theorem followedBy_assoc (e : Emission σ EmitResult)
    (next next' : σ → Runs → Emission σ EmitResult) :
    (e.followedBy next).followedBy next' =
      e.followedBy fun s runs => (next s runs).followedBy next' := by
  obtain ⟨outcome, s, runs⟩ := e
  cases outcome with
  | error f => rfl
  | ok r =>
    cases hr : r.isOk with
    | false =>
      have hstop (next : σ → Runs → Emission σ EmitResult) :
          followedBy ⟨.ok r, s, runs⟩ next = ⟨.ok r, s, runs⟩ := followedBy_of_stopped rfl hr
      rw [hstop, hstop, hstop]
    | true =>
      have hgo (next : σ → Runs → Emission σ EmitResult) :
          followedBy ⟨.ok r, s, runs⟩ next = (next s runs).map r.andThen :=
        followedBy_of_done rfl hr
      rw [hgo, hgo]
      generalize next s runs = e'
      obtain ⟨outcome', s', runs'⟩ := e'
      cases outcome' with
      | error f => rfl
      | ok r' =>
        have hok : (r.andThen r').isOk = r'.isOk := EmitResult.isOk_andThen r r'
        cases hr' : r'.isOk with
        | false =>
          rw [followedBy_of_stopped (e := ⟨.ok r', s', runs'⟩) rfl hr']
          exact followedBy_of_stopped rfl (hok.trans hr')
        | true =>
          rw [followedBy_of_done (e := ⟨.ok r', s', runs'⟩) rfl hr',
            followedBy_of_done (e := map r.andThen ⟨.ok r', s', runs'⟩) rfl (hok.trans hr')]
          dsimp only [map]
          cases (next' s' runs').outcome with
          | error f => rfl
          | ok r'' =>
            exact congrArg (fun r => (⟨.ok r, _, _⟩ : Emission σ EmitResult))
              (EmitResult.andThen_assoc r r' r'')

/-- The error of the result, if it has one, carries its count. -/
def IsSettled (e : Emission σ EmitResult) : Prop := ∀ r, e.outcome = .ok r → r.IsSettled

theorem IsSettled.settled_eq {e : Emission σ EmitResult} (h : e.IsSettled) : e.settled = e := by
  obtain ⟨outcome, s, runs⟩ := e
  cases outcome with
  | error f => rfl
  | ok r =>
    exact congrArg (fun r => (⟨.ok r, s, runs⟩ : Emission σ EmitResult))
      (EmitResult.done_zero_andThen (h r rfl))

theorem IsSettled.followedBy {e : Emission σ EmitResult} (h : e.IsSettled)
    (next : σ → Runs → Emission σ EmitResult) : (e.followedBy next).IsSettled := by
  obtain ⟨outcome, s, runs⟩ := e
  cases outcome with
  | error f => exact fun r hr => by cases hr
  | ok r =>
    cases hr : r.isOk with
    | false =>
      rw [followedBy_of_stopped rfl hr]
      exact h
    | true =>
      rw [followedBy_of_done rfl hr]
      intro r' hr'
      unfold map at hr'
      dsimp only at hr'
      generalize (next s runs).outcome = outcome at hr'
      cases outcome with
      | error f => cases hr'
      | ok r'' =>
        cases hr'
        exact EmitResult.isSettled_andThen _ _

end Emission

/-! ### Sinks that stop a plan -/

/-- The sink can stop the writing of a byte string by this fault: it gives up by it, or takes
none. -/
inductive Sink.Declines (k : Sink σ) : Fault → Prop where
  /-- It gives up. -/
  | gaveUp {f : Fault} {b : UInt8} {rest : Bytes} {s : σ}
    (answer : (k.write (b :: rest) s).1 = .gaveUp f) : Declines k f
  /-- It takes none. -/
  | took {n : Int} {b : UInt8} {rest : Bytes} {s : σ} (none : n ≤ 0)
    (answer : (k.write (b :: rest) s).1 = .took n) (count : Int) (size : Nat) :
    Declines k (.shortWrite count size)

/-- What comes of an emission that the sink stops. -/
inductive Sink.Halts (k : Sink σ) : Except Fault EmitResult → Prop where
  /-- The sink refuses data. -/
  | refused (count : Int) {f : Fault} (refusal : f.isRefusal = true) (declines : k.Declines f) :
    Halts k (.ok (.stopped count (.refused f)))
  /-- The sink gives up otherwise. -/
  | fault {f : Fault} (other : f.isRefusal = false) (declines : k.Declines f) : Halts k (.error f)

/-- What was counted before does not change that. -/
theorem Sink.Halts.map {k : Sink σ} {outcome : Except Fault EmitResult} (h : k.Halts outcome)
    (n : Int) : k.Halts (outcome.map (EmitResult.done n).andThen) := by
  cases h with
  | refused count refusal declines => exact .refused (n + count) refusal declines
  | fault other declines => exact .fault other declines

/-- What would come next does not happen. -/
theorem Sink.Halts.followedBy_eq {k : Sink σ} {e : Emission σ EmitResult} (h : k.Halts e.outcome)
    (next : σ → Runs → Emission σ EmitResult) : e.followedBy next = e := by
  obtain ⟨outcome, s, runs⟩ := e
  cases h with
  | refused count => exact Emission.followedBy_of_stopped rfl rfl
  | fault => exact Emission.followedBy_of_fault rfl

theorem Sink.writeRest_cases (k : Sink σ) (size fuel : Nat) :
    ∀ (count : Int) (rest : Bytes) (s : σ),
      (∃ n, (k.writeRest size fuel count rest s).1 = .ok (.done n)) ∨
        k.Halts (k.writeRest size fuel count rest s).1 := by
  induction fuel with
  | zero => exact fun count rest s => .inl ⟨count, rfl⟩
  | succ fuel ih =>
    intro count rest s
    cases rest with
    | nil => exact .inl ⟨count, rfl⟩
    | cons b rest =>
      unfold Sink.writeRest
      cases hw : k.write (b :: rest) s with
      | mk answer s' =>
        have hanswer : (k.write (b :: rest) s).1 = answer := congrArg Prod.fst hw
        cases answer with
        | tookAll => exact .inl ⟨size, rfl⟩
        | gaveUp f =>
          dsimp only
          cases hf : f.isRefusal with
          | true => exact .inr (.refused count hf (.gaveUp hanswer))
          | false => exact .inr (.fault hf (.gaveUp hanswer))
        | took n =>
          dsimp only
          split
          · next hn => exact .inr (.refused count rfl (.took hn hanswer count size))
          · exact ih _ _ _

/-- Every byte string is written, or the sink stops it. -/
theorem Sink.writeAll_cases (k : Sink σ) (data : Bytes) (s : σ) :
    (∃ n, (k.writeAll data s).1 = .ok (.done n)) ∨ k.Halts (k.writeAll data s).1 :=
  k.writeRest_cases _ _ _ _ _

/-- What the writing ends in without a result is no refusal. -/
theorem Sink.isRefusal_of_writeAll {k : Sink σ} {data : Bytes} {s : σ} {f : Fault}
    (h : (k.writeAll data s).1 = .error f) : f.isRefusal = false := by
  rcases k.writeAll_cases data s with ⟨n, hn⟩ | hhalts
  · cases h.symm.trans hn
  · rw [h] at hhalts
    cases hhalts with
    | fault other => exact other

/-! ### Plans carried out -/

namespace Emission

/-- The byte strings written one after the other, and then the end. -/
def ofPieces (k : Sink σ) (ending : Plan.Ending) :
    (pieces : List Bytes) → σ → Runs → Emission σ EmitResult
  | [], s, runs => ⟨ending.outcome 0, s, runs⟩
  | data :: rest, s, runs =>
    (bytes k data s runs).followedBy fun s runs => ofPieces k ending rest s runs

/-- A plan carried out. -/
def ofPlan (k : Sink σ) (p : Plan) (s : σ) (runs : Runs) : Emission σ EmitResult :=
  ofPieces k p.ending p.pieces s runs

theorem ofPlan_cons (k : Sink σ) (data : Bytes) (rest : List Bytes) (ending : Plan.Ending) (s : σ)
    (runs : Runs) : ofPlan k ⟨data :: rest, ending⟩ s runs =
      (bytes k data s runs).followedBy fun s runs => ofPlan k ⟨rest, ending⟩ s runs := rfl

section Carried

variable (k : Sink σ) (s : σ) (runs : Runs)

theorem isSettled_bytes (data : Bytes) : (bytes k data s runs).IsSettled := by
  intro r hr
  have houtcome : (k.writeAll data s).1 = .ok r := hr
  rcases k.writeAll_cases data s with ⟨n, h⟩ | h
  · cases h.symm.trans houtcome
    exact EmitResult.isSettled_done n
  · rw [houtcome] at h
    cases h with
    | refused n => exact EmitResult.isSettled_stopped n _

theorem isSettled_ofPlan (p : Plan) : (ofPlan k p s runs).IsSettled := by
  obtain ⟨pieces, ending⟩ := p
  cases pieces with
  | nil =>
    intro r hr
    cases ending <;> cases hr
    · exact EmitResult.isSettled_done 0
    · exact EmitResult.isSettled_stopped 0 _
  | cons data rest => exact (isSettled_bytes k s runs data).followedBy _

theorem followedBy_nothing {e : Emission σ EmitResult} (h : e.IsSettled) :
    (e.followedBy fun s runs => nothing s runs) = e := by
  obtain ⟨outcome, s, runs⟩ := e
  cases outcome with
  | error f => rfl
  | ok r =>
    obtain ⟨count, _ | error⟩ := r
    · rw [followedBy_of_done rfl rfl]
      exact congrArg (fun n => (⟨.ok (.done n), s, runs⟩ : Emission σ EmitResult))
        (Int.add_zero count)
    · rw [followedBy_of_stopped rfl rfl]

theorem ofPlan_piece (data : Bytes) : ofPlan k (.piece data) s runs = bytes k data s runs :=
  followedBy_nothing (isSettled_bytes k s runs data)

theorem ofPlan_somePiece (data : Bytes) :
    ofPlan k (.somePiece data) s runs = someBytes k data s runs := by
  unfold Plan.somePiece someBytes
  split
  · rfl
  · exact ofPlan_piece k s runs data

/-- **Plans in a row** are carried out one after the other. -/
theorem ofPlan_andThen (p next : Plan) : ofPlan k (p.andThen next) s runs =
    (ofPlan k p s runs).followedBy fun s runs => ofPlan k next s runs := by
  obtain ⟨pieces, ending⟩ := p
  induction pieces generalizing s runs with
  | nil =>
    cases ending with
    | whole =>
      -- what comes after nothing has its own count
      refine (IsSettled.settled_eq (isSettled_ofPlan k s runs next)).symm.trans ?_
      rw [settled_eq_map]
      exact (followedBy_of_done (e := nothing s runs) rfl rfl).symm
    | stopped cause => exact (followedBy_of_stopped (e := ⟨_, s, runs⟩) rfl rfl).symm
    | fault f => rfl
  | cons data rest ih =>
    rw [ofPlan_cons, followedBy_assoc]
    simp only [← ih]
    cases ending <;> rfl

theorem ofPlan_thenFragment (p : Plan) (fragment : Option Bytes) (next : Plan) :
    ofPlan k (p.thenFragment fragment next) s runs =
      (ofPlan k p s runs).thenFragment k fragment fun s runs => ofPlan k next s runs := by
  cases fragment with
  | none => rfl
  | some f =>
    simp only [Plan.thenFragment, thenFragment, ofPlan_andThen, ofPlan_piece]

theorem ofPlan_unbound (template : String) (name : Option String) :
    ofPlan k (.unbound template name) s runs = emitUnbound template name s runs := by
  cases name <;> rfl

end Carried

/-- **A plan that is carried out ends as planned, or the sink stops it.** -/
theorem outcome_ofPlan (k : Sink σ) (p : Plan) (s : σ) (runs : Runs) :
    (∃ n, (ofPlan k p s runs).outcome = p.ending.outcome n) ∨
      k.Halts (ofPlan k p s runs).outcome := by
  obtain ⟨pieces, ending⟩ := p
  induction pieces generalizing s runs with
  | nil => exact .inl ⟨0, rfl⟩
  | cons data rest ih =>
    rw [ofPlan_cons]
    rcases k.writeAll_cases data s with ⟨n, h⟩ | h
    · rw [followedBy_of_done (e := bytes k data s runs) h rfl]
      rcases ih (bytes k data s runs).sink runs with ⟨m, hm⟩ | hm
      · refine .inl ⟨n + m, ?_⟩
        rw [← ending.map_outcome, ← hm]
        rfl
      · exact .inr (hm.map n)
    · refine .inr ?_
      have hstop : (followedBy (bytes k data s runs) fun s runs =>
          ofPlan k ⟨rest, ending⟩ s runs) = bytes k data s runs := h.followedBy_eq _
      rw [hstop]
      exact h

end Emission

/-! ### Plans through a sink that escapes -/

/-- The result at the target keeps its own count, whatever count the content has. -/
theorem Escaping.conclude_andThen (codec : Codec) (r said : EmitResult) (st : Escaping σ) :
    st.conclude codec (r.andThen said) = st.conclude codec said := by
  obtain ⟨count, _ | e⟩ := said
  · rfl
  · unfold conclude
    cases st.failure <;> rfl

namespace Emission

theorem ofEscaping_map_andThen (codec : Codec) (r : EmitResult)
    (e : Emission (Escaping σ) EmitResult) :
    ofEscaping codec (e.map r.andThen) = ofEscaping codec e := by
  obtain ⟨outcome, st, runs⟩ := e
  cases outcome with
  | error f => rfl
  | ok said =>
    exact congrArg (fun outcome => (⟨outcome, st.target, runs⟩ : Emission σ EmitResult))
      (st.conclude_andThen codec r said)

/-- What was counted before an ending is counted by it. -/
theorem map_andThen_ofPlan_ended (k : Sink σ) (n : Int) (ending : Plan.Ending) (s : σ)
    (runs : Runs) : (ofPlan k (.ended ending) s runs).map (EmitResult.done n).andThen =
      ⟨ending.outcome n, s, runs⟩ := by
  have houtcome := ending.map_outcome n 0
  rw [Int.add_zero] at houtcome
  rw [← houtcome]
  rfl

/-- What was counted before a plan is counted by it. -/
theorem map_andThen_ofPlan_cons (k : Sink σ) (n : Int) (data : Bytes) (p : Plan) (s : σ)
    (runs : Runs) :
    (ofPlan k (p.cons data) s runs).map (EmitResult.done n).andThen =
      match k.writeAll data s with
      | (.ok r, s') =>
        if r.isOk then (ofPlan k p s' runs).map (EmitResult.done (n + r.count)).andThen
        else ⟨.ok ((EmitResult.done n).andThen r), s', runs⟩
      | (.error f, s') => ⟨.error f, s', runs⟩ := by
  rw [Plan.cons, ofPlan_cons, bytes]
  generalize k.writeAll data s = w
  obtain ⟨f | ⟨count, _ | e⟩, s'⟩ := w
  · rfl
  · rw [followedBy_of_done rfl rfl]
    dsimp only
    generalize ofPlan k p s' runs = e
    obtain ⟨outcome, s'', runs'⟩ := e
    cases outcome with
    | error f => rfl
    | ok r =>
      exact congrArg (fun r => (⟨.ok r, s'', runs'⟩ : Emission σ EmitResult))
        (EmitResult.andThen_assoc (.done n) (.done count) r).symm
  · rw [followedBy_of_stopped rfl rfl]
    rfl

/-- An emission that is stopped by the first of its writes, through a sink that escapes. -/
theorem ofEscaping_of_gaveUp {k : Sink (Escaping σ)} (codec : Codec) {b : UInt8} {data : Bytes}
    {st st' : Escaping σ} {f : Fault} (h : k.write (b :: data) st = (.gaveUp f, st'))
    (runs : Runs) (next : Escaping σ → Runs → Emission (Escaping σ) EmitResult) :
    ofEscaping codec ((bytes k (b :: data) st runs).followedBy next) =
      ⟨if f.isRefusal then st'.conclude codec (.stopped 0 (.refused f)) else .error f,
        st'.target, runs⟩ := by
  have hbytes : bytes k (b :: data) st runs =
      ⟨if f.isRefusal then .ok (.stopped 0 (.refused f)) else .error f, st', runs⟩ := by
    rw [bytes, Sink.writeAll_of_answer (.inr ⟨f, congrArg Prod.fst h⟩), h]
    rfl
  rw [hbytes]
  cases hf : f.isRefusal with
  | true => rw [if_pos rfl, if_pos rfl, followedBy_of_stopped rfl rfl]; rfl
  | false => rfl

/-- An emission the first write of which is taken whole, through a sink that escapes. -/
theorem ofEscaping_of_took {k : Sink (Escaping σ)} (codec : Codec) {b : UInt8} {data : Bytes}
    {st st' : Escaping σ} (h : k.write (b :: data) st = (.took (b :: data).length, st'))
    (runs : Runs) (next : Escaping σ → Runs → Emission (Escaping σ) EmitResult) :
    ofEscaping codec ((bytes k (b :: data) st runs).followedBy next) =
      ofEscaping codec (next st' runs) := by
  have hbytes : bytes k (b :: data) st runs = ⟨.ok (.done (b :: data).length), st', runs⟩ := by
    rw [bytes, Sink.writeAll_of_answer (.inl (congrArg Prod.fst h)), h]
    rfl
  rw [hbytes, followedBy_of_done rfl rfl, ofEscaping_map_andThen]

/-- The end of a plan, through a sink that escapes and has brought `n` bytes to its target. -/
theorem ofEscaping_outcome (codec : Codec) (ending : Plan.Ending) (s : σ) (reading : Codec.State)
    (n : Int) (runs : Runs) :
    ofEscaping codec ⟨ending.outcome 0, ⟨s, reading, n, none⟩, runs⟩ =
      ⟨(ending.after codec reading).outcome n, s, runs⟩ := by
  cases ending with
  | whole =>
    simp only [ofEscaping, Escaping.conclude, Plan.Ending.after, Plan.Ending.outcome,
      EmitResult.error_done]
    cases codec.finish reading with
    | ok u => rfl
    | error f =>
      dsimp only
      split <;> rfl
  | stopped cause => rfl
  | fault f => rfl

/-- The sink that escapes gives up of its own, after `n` bytes at its target. -/
theorem ofEscaping_of_declined {k : Sink (Escaping σ)} (codec : Codec) {b : UInt8} {data : Bytes}
    {st : Escaping σ} {s : σ} {reading : Codec.State} {n : Int} {f : Fault}
    (h : k.write (b :: data) st = (.gaveUp f, ⟨s, reading, n, none⟩)) (runs : Runs)
    (next : Escaping σ → Runs → Emission (Escaping σ) EmitResult) :
    ofEscaping codec ((bytes k (b :: data) st runs).followedBy next) =
      ⟨(Plan.Ending.ofFault f).outcome n, s, runs⟩ := by
  rw [ofEscaping_of_gaveUp codec h, Plan.Ending.ofFault]
  split <;> rfl

/-- A plan through a sink that escapes and has brought `n` bytes to its target so far. -/
theorem ofEscaping_ofPieces (k : Sink σ) (escape : Escape) (codec : Codec) (ending : Plan.Ending)
    (pieces : List Bytes) : ∀ (s : σ) (reading : Codec.State) (n : Int) (runs : Runs),
      ofEscaping codec (ofPieces (k.escaping escape codec) ending pieces
          ⟨s, reading, n, none⟩ runs) =
        (ofPlan k (.escape escape codec ending pieces reading) s runs).map
          (EmitResult.done n).andThen := by
  induction pieces with
  | nil =>
    intro s reading n runs
    rw [ofPieces, ofEscaping_outcome, Plan.escape, map_andThen_ofPlan_ended]
  | cons piece rest ih =>
    intro s reading n runs
    cases piece with
    | nil =>
      -- nothing is written, so the sink does not hear of it
      have hnone : ofPieces (k.escaping escape codec) ending ([] :: rest) ⟨s, reading, n, none⟩
          runs = (ofPieces (k.escaping escape codec) ending rest ⟨s, reading, n, none⟩ runs).map
            (EmitResult.done 0).andThen := followedBy_of_done rfl rfl
      rw [hnone, ofEscaping_map_andThen]
      exact ih s reading n runs
    | cons b data =>
      have hwrite : (k.escaping escape codec).write (b :: data) ⟨s, reading, n, none⟩ =
        Escaping.write k escape codec (b :: data) ⟨s, reading, n, none⟩ := rfl
      rw [Plan.escape, ofPieces]
      unfold Escaping.write at hwrite
      generalize codec.feed reading (b :: data) = read at hwrite ⊢
      obtain ⟨f | ⟨_ | ⟨p, text⟩⟩, reading⟩ := read
      · rw [ofEscaping_of_declined codec hwrite, map_andThen_ofPlan_ended]
      · rw [ofEscaping_of_took codec hwrite]
        exact ih s reading n runs
      · simp only [Escaping.forward] at hwrite
        cases hrun : escape.run (p :: text) with
        | error f =>
          simp only [hrun] at hwrite ⊢
          rw [ofEscaping_of_declined codec hwrite, map_andThen_ofPlan_ended]
        | ok escaped =>
          cases hencode : codec.encode escaped with
          | error f =>
            simp only [hrun, hencode] at hwrite ⊢
            rw [ofEscaping_of_declined codec hwrite, map_andThen_ofPlan_ended]
          | ok bytes =>
            simp only [hrun, hencode] at hwrite ⊢
            rw [map_andThen_ofPlan_cons]
            generalize hw : k.writeAll bytes s = w at hwrite ⊢
            obtain ⟨f | ⟨count, _ | e⟩, s'⟩ := w
            · -- the fault is no refusal of the target, so it is none in front of it either
              rw [ofEscaping_of_gaveUp codec hwrite]
              rw [Sink.isRefusal_of_writeAll (congrArg Prod.fst hw)]
              rfl
            · rw [ofEscaping_of_took codec hwrite, ih]
              rfl
            · rw [ofEscaping_of_gaveUp codec hwrite]
              rfl

/-- **A plan through a sink that escapes** is carried out as the plan that the escape makes of
it. -/
theorem ofEscaping_ofPlan (k : Sink σ) (escape : Escape) (codec : Codec) (p : Plan) (s : σ)
    (runs : Runs) :
    ofEscaping codec (ofPlan (k.escaping escape codec) p (.start codec s) runs) =
      ofPlan k (.escape escape codec p.ending p.pieces codec.start) s runs := by
  refine (ofEscaping_ofPieces k escape codec p.ending p.pieces s codec.start 0 runs).trans ?_
  rw [← settled_eq_map]
  exact (isSettled_ofPlan k s runs _).settled_eq

end Emission

/-! ### Content without scripts -/

section Content

variable [DigitLimit]

/-- The slots of a template from one on do what they have planned. -/
theorem emitSlots_eq_ofPlan (k : Sink σ) (t : Template ω) :
    ∀ (bindings : List (Option (Tree ω))),
      (∀ c, some c ∈ bindings → ∀ (s : σ) (runs : Runs),
        Tree.emit c k s runs = .ofPlan k c.plan s runs) →
      ∀ (slot : Nat) (s : σ) (runs : Runs),
        emitSlots t slot bindings k s runs = .ofPlan k (slotsPlan t slot bindings) s runs := by
  intro bindings
  induction bindings with
  | nil => exact fun _ slot s runs => rfl
  | cons binding rest ih =>
    intro hbound slot s runs
    have hnext := ih (fun c hc => hbound c (List.mem_cons_of_mem _ hc)) (slot + 1)
    cases binding with
    | none =>
      simp only [emitSlots, slotsPlan, Emission.ofPlan_thenFragment, Emission.ofPlan_unbound, hnext]
    | some c =>
      have hc := hbound c List.mem_cons_self s runs
      simp only [emitSlots, slotsPlan, Emission.ofPlan_thenFragment, hnext, hc]
      rw [(Emission.isSettled_ofPlan k s runs c.plan).settled_eq]

/-- **Content without scripts does what it has planned**, whatever its sink does. -/
theorem Tree.emit_eq_ofPlan {c : Tree ω} (hc : c.IsPlain) : ∀ {σ : Type} (k : Sink σ) (s : σ)
    (runs : Runs), Tree.emit c k s runs = .ofPlan k c.plan s runs := by
  induction hc with
  | empty => exact fun k s runs => rfl
  | data bytes => exact fun k s runs => (Emission.ofPlan_piece k s runs bytes).symm
  | print value encoding =>
    intro σ k s runs
    simp only [Tree.emit, Content.plan, Emission.bytesOr]
    cases value.printed encoding with
    | ok data => exact (Emission.ofPlan_piece k s runs data).symm
    | error f => rfl
  | format format values encoding =>
    intro σ k s runs
    simp only [Tree.emit, Content.plan]
    rcases formatted format values encoding with f | cause | data
    · rfl
    · rfl
    · exact (Emission.ofPlan_piece k s runs data).symm
  | brackets before after _ ih =>
    intro σ k s runs
    simp only [Tree.emit, Content.plan, Emission.ofPlan_andThen, Emission.ofPlan_somePiece, ih]
  | escaper escape encoding _ ih =>
    intro σ k s runs
    simp only [Tree.emit, Content.plan]
    cases encoding.codec with
    | ok codec =>
      dsimp only
      rw [ih, Emission.ofEscaping_ofPlan]
    | error f => rfl
  | bound template _ ih =>
    intro σ k s runs
    exact emitSlots_eq_ofPlan k template _ (fun c hc s runs => ih c hc k s runs) 0 s runs

end Content

end Stencil
