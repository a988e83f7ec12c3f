import Stencil.Proofs.Content.Keeps

/-!
# Emissions side by side

Two emissions of the same content, to two sinks, are compared here.  As long as the sinks answer in
the same way, content cannot tell them apart.  Content without scripts sees even less of its sink:
whether a whole byte string was written, and if not, that it has to stop.  So one of the sinks may
take less than the other, as long as it then stops the emission: it stays behind.

`S` relates the states of the sinks as long as the emissions agree, and `B` relates them once the
first one was stopped, whatever the second one does then.

## Main definitions

* `Emission.Alike`, `Emission.Shadows` — two emissions that agree, or the first was stopped.
* `Sink.Alike`, `Sink.Shadows` — sinks whose answers agree, or the first of which may stop first.
* `Content.IsPlain` — content without scripts.

## Main results

* `Tree.emit_shadows` — emissions to such sinks agree, or the first one was stopped.
* `Tree.emit_alike` — emissions to sinks that answer in the same way agree.
-/

namespace Stencil

variable {σ τ ω α β : Type} {S B : σ → τ → Prop} {runs runs' : Runs}

@[simp] theorem EmitResult.isOk_andThen (r next : EmitResult) :
    (r.andThen next).isOk = next.isOk := by
  unfold andThen
  split
  · next h => rw [isOk_done, isOk, h]; rfl
  · next e h => rw [isOk_failed, isOk, h]; rfl

/-! ### Emissions in a row -/

namespace Emission

/-- An emission with something else made of what came of it. -/
def map (f : α → β) (e : Emission σ α) : Emission σ β := ⟨e.outcome.map f, e.sink, e.runs⟩

theorem settled_eq_map (e : Emission σ EmitResult) :
    e.settled = e.map (EmitResult.done 0).andThen := by
  unfold settled bind map
  cases e.outcome <;> rfl

variable {e : Emission σ EmitResult} {next : σ → Runs → Emission σ EmitResult}

theorem followedBy_of_done {r : EmitResult} (ho : e.outcome = .ok r) (hr : r.isOk = true) :
    e.followedBy next = (next e.sink e.runs).map r.andThen := by
  unfold followedBy bind map
  rw [ho]
  simp only [hr, if_true]
  cases (next e.sink e.runs).outcome <;> rfl

theorem followedBy_of_stopped {r : EmitResult} (ho : e.outcome = .ok r) (hr : r.isOk = false) :
    e.followedBy next = e := by
  obtain ⟨outcome, s, runs⟩ := e
  cases ho
  unfold followedBy bind
  simp [hr]

theorem followedBy_of_fault {f : Fault} (ho : e.outcome = .error f) : e.followedBy next = e := by
  obtain ⟨outcome, s, runs⟩ := e
  cases ho
  rfl

/-! ### Emissions that agree -/

/-- Two emissions have the same outcome, leave related states, and ran the same scripts since
`runs` and `runs'`. -/
structure Alike (S : σ → τ → Prop) (runs runs' : Runs) (e : Emission σ α) (e' : Emission τ α) :
    Prop where
  /-- The same came of them. -/
  outcome : e.outcome = e'.outcome
  /-- The sinks are in related states. -/
  sink : S e.sink e'.sink
  /-- The same scripts ran. -/
  runs : ∃ new, e.runs = runs ++ new ∧ e'.runs = runs' ++ new

theorem Alike.of_runs {outcome : Except Fault α} {s : σ} {s' : τ} (hs : S s s') :
    Alike S runs runs' ⟨outcome, s, runs⟩ ⟨outcome, s', runs'⟩ where
  outcome := rfl
  sink := hs
  runs := ⟨[], by simp⟩

/-- Emissions that ran the same scripts since two later points ran the same scripts. -/
theorem Alike.since {e : Emission σ α} {e' : Emission τ α} {new : Runs}
    (h : e.Alike S (runs ++ new) (runs' ++ new) e') : e.Alike S runs runs' e' where
  outcome := h.outcome
  sink := h.sink
  runs := by
    obtain ⟨more, hm, hm'⟩ := h.runs
    exact ⟨new ++ more, by rw [hm, List.append_assoc], by rw [hm', List.append_assoc]⟩

theorem Alike.map {e : Emission σ α} {e' : Emission τ α} (h : e.Alike S runs runs' e')
    (f : α → β) : (e.map f).Alike S runs runs' (e'.map f) where
  outcome := congrArg (Except.map f) h.outcome
  sink := h.sink
  runs := h.runs

theorem Alike.bind {e : Emission σ α} {e' : Emission τ α} (h : e.Alike S runs runs' e')
    {next : α → σ → Runs → Emission σ β} {next' : α → τ → Runs → Emission τ β}
    (hnext : ∀ a s s' runs runs', S s s' →
      (next a s runs).Alike S runs runs' (next' a s' runs')) :
    (e.bind next).Alike S runs runs' (e'.bind next') := by
  obtain ⟨outcome, s, r⟩ := e
  obtain ⟨outcome', s', r'⟩ := e'
  obtain ⟨ho, hs, new, hr, hr'⟩ := h
  cases ho
  cases hr
  cases hr'
  cases outcome with
  | ok a => exact (hnext a s s' _ _ hs).since
  | error f => exact ⟨rfl, hs, new, rfl, rfl⟩

/-! ### Emissions that agree, or the first of which was stopped -/

/-- The emission was stopped. -/
def Stopped (e : Emission σ EmitResult) : Prop := ∃ r, e.outcome = .ok r ∧ r.isOk = false

/-- Two emissions agree, or the first one was stopped and its sink has stayed behind. -/
def Shadows (S B : σ → τ → Prop) (runs runs' : Runs) (e : Emission σ EmitResult)
    (e' : Emission τ EmitResult) : Prop :=
  e.Alike S runs runs' e' ∨ e.Stopped ∧ B e.sink e'.sink

variable {e' : Emission τ EmitResult} {next' : τ → Runs → Emission τ EmitResult}

/-- Emissions of which the first one cannot stay behind agree. -/
theorem Shadows.alike (h : e.Shadows S (fun _ _ => False) runs runs' e') :
    e.Alike S runs runs' e' := by
  rcases h with h | ⟨-, hb⟩
  · exact h
  · exact hb.elim

theorem Shadows.since {new : Runs} (h : e.Shadows S B (runs ++ new) (runs' ++ new) e') :
    e.Shadows S B runs runs' e' := h.imp_left Alike.since

theorem Shadows.map (h : e.Shadows S B runs runs' e') {f : EmitResult → EmitResult}
    (hf : ∀ r, (f r).isOk = r.isOk) : (e.map f).Shadows S B runs runs' (e'.map f) := by
  rcases h with h | ⟨⟨r, ho, hr⟩, hb⟩
  · exact .inl (h.map f)
  · refine .inr ⟨⟨f r, ?_, by rw [hf, hr]⟩, hb⟩
    rw [Emission.map, ho]
    rfl

theorem Shadows.settled (h : e.Shadows S B runs runs' e') :
    e.settled.Shadows S B runs runs' e'.settled := by
  rw [settled_eq_map, settled_eq_map]
  exact h.map (EmitResult.isOk_andThen _)

/-- What comes after emissions that agree is compared in turn; what comes after an emission whose
fellow was stopped must keep that one behind. -/
theorem Shadows.followedBy (h : e.Shadows S B runs runs' e')
    (hbehind : ∀ s s' runs', B s s' → B s (next' s' runs').sink)
    (hnext : ∀ s s' runs runs', S s s' →
      (next s runs).Shadows S B runs runs' (next' s' runs')) :
    (e.followedBy next).Shadows S B runs runs' (e'.followedBy next') := by
  rcases h with h | ⟨⟨r, ho, hr⟩, hb⟩
  · cases ho : e.outcome with
    | error f =>
      rw [followedBy_of_fault ho, followedBy_of_fault (h.outcome ▸ ho)]
      exact .inl h
    | ok r =>
      cases hr : r.isOk with
      | false =>
        rw [followedBy_of_stopped ho hr, followedBy_of_stopped (h.outcome ▸ ho) hr]
        exact .inl h
      | true =>
        -- both came to their end, so both go on
        rw [followedBy_of_done ho hr, followedBy_of_done (h.outcome ▸ ho) hr]
        obtain ⟨new, hnew, hnew'⟩ := h.runs
        have hmore := hnext _ _ e.runs e'.runs h.sink
        rw [hnew, hnew'] at hmore ⊢
        exact (hmore.map (EmitResult.isOk_andThen r)).since
  -- the first one was stopped; the second one may go on without it
  · rw [followedBy_of_stopped ho hr]
    exact .inr ⟨⟨r, ho, hr⟩, keeps_followedBy hb (fun s' runs' hs => hbehind _ s' runs' hs)⟩

end Emission

/-! ### Sinks side by side -/

/-- Sinks in related states give the same answers, and go to related states. -/
def Sink.Alike (k : Sink σ) (k' : Sink τ) (S : σ → τ → Prop) : Prop :=
  ∀ data s s', S s s' →
    (k.write data s).1 = (k'.write data s').1 ∧ S (k.write data s).2 (k'.write data s').2

/-- Whole byte strings are written to both sinks alike, or writing stops at the first one; that
stays behind then. -/
structure Sink.Shadows (k : Sink σ) (k' : Sink τ) (S B : σ → τ → Prop) : Prop where
  /-- A byte string is written to both, or the first one stops. -/
  bytes : ∀ data s s' runs runs', S s s' →
    (Emission.bytes k data s runs).Shadows S B runs runs' (Emission.bytes k' data s' runs')
  /-- Writes to the second one keep the first one behind. -/
  behind : ∀ s, k'.Keeps (B s)

variable {k : Sink σ} {k' : Sink τ}

theorem Sink.Alike.writeRest (h : k.Alike k' S) (size fuel : Nat) :
    ∀ (count : Int) (rest : Bytes) (s : σ) (s' : τ), S s s' →
      (k.writeRest size fuel count rest s).1 = (k'.writeRest size fuel count rest s').1 ∧
        S (k.writeRest size fuel count rest s).2 (k'.writeRest size fuel count rest s').2 := by
  induction fuel with
  | zero => exact fun _ _ _ _ hs => ⟨rfl, hs⟩
  | succ fuel ih =>
    intro count rest s s' hs
    cases rest with
    | nil => exact ⟨rfl, hs⟩
    | cons b rest =>
      obtain ⟨ha, hs⟩ := h (b :: rest) s s' hs
      unfold Sink.writeRest
      generalize k.write (b :: rest) s = w at ha hs
      generalize k'.write (b :: rest) s' = w' at ha hs
      obtain ⟨answer, s⟩ := w
      obtain ⟨answer', s'⟩ := w'
      cases ha
      cases answer with
      | tookAll => exact ⟨rfl, hs⟩
      | gaveUp f => exact ⟨rfl, hs⟩
      | took n =>
        dsimp only
        split
        · exact ⟨rfl, hs⟩
        · exact ih _ _ _ _ hs

/-- Sinks that answer in the same way are never behind each other. -/
theorem Sink.Alike.shadows (h : k.Alike k' S) : k.Shadows k' S (fun _ _ => False) where
  bytes data s s' runs runs' hs := by
    obtain ⟨ho, hs⟩ := h.writeRest data.length data.length 0 data s s' hs
    exact .inl ⟨ho, hs, [], by simp [Emission.bytes], by simp [Emission.bytes]⟩
  behind _ _ _ hb := hb

namespace Emission

theorem Shadows.thenFragment (hk : k.Shadows k' S B) {e : Emission σ EmitResult}
    {e' : Emission τ EmitResult} (h : e.Shadows S B runs runs' e') {fragment : Option Bytes}
    {next : σ → Runs → Emission σ EmitResult} {next' : τ → Runs → Emission τ EmitResult}
    (hbehind : ∀ s s' runs', B s s' → B s (next' s' runs').sink)
    (hnext : ∀ s s' runs runs', S s s' →
      (next s runs).Shadows S B runs runs' (next' s' runs')) :
    (e.thenFragment k fragment next).Shadows S B runs runs'
      (e'.thenFragment k' fragment next') := by
  cases fragment with
  | none => exact h
  | some f =>
    refine (h.followedBy ?_ ?_).followedBy hbehind hnext
    · exact fun s s' runs' hb => keeps_bytes (hk.behind s) f hb runs'
    · exact fun s s' runs runs' hs => hk.bytes f s s' runs runs' hs

theorem Shadows.someBytes (hk : k.Shadows k' S B) (data : Bytes) {s : σ} {s' : τ} (hs : S s s') :
    (Emission.someBytes k data s runs).Shadows S B runs runs'
      (Emission.someBytes k' data s' runs') := by
  unfold Emission.someBytes
  split
  · exact .inl (.of_runs hs)
  · exact hk.bytes data s s' runs runs' hs

end Emission

/-! ### Sinks that escape, side by side -/

theorem Sink.writeRest_nil (k : Sink σ) (size fuel : Nat) (count : Int) (s : σ) :
    k.writeRest size fuel count [] s = (.ok (.done count), s) := by
  cases fuel <;> rfl

/-- What becomes of `size` bytes that a sink takes whole or gives up at once. -/
def WriteOutcome.settle (size : Nat) : WriteOutcome → Except Fault EmitResult
  | .gaveUp f => if f.isRefusal then .ok (.stopped 0 (.refused f)) else .error f
  | _ => .ok (.done size)

/-- A sink that takes a write whole or gives up at once settles a byte string by one write. -/
theorem Sink.writeAll_of_answer {b : UInt8} {rest : Bytes} {s : σ}
    (ha : (k.write (b :: rest) s).1 = .took (b :: rest).length ∨
      ∃ f, (k.write (b :: rest) s).1 = .gaveUp f) :
    k.writeAll (b :: rest) s =
      ((k.write (b :: rest) s).1.settle (b :: rest).length, (k.write (b :: rest) s).2) := by
  unfold Sink.writeAll
  rw [List.length_cons, Sink.writeRest]
  generalize k.write (b :: rest) s = w at ha ⊢
  obtain ⟨answer, s'⟩ := w
  rcases ha with ha | ⟨f, ha⟩
  · cases ha
    have hpos : ¬((b :: rest).length : Int) ≤ 0 := by
      rw [List.length_cons]
      omega
    simp only [if_neg hpos, Int.toNat_natCast, List.drop_length, Sink.writeRest_nil, Int.zero_add,
      WriteOutcome.settle]
    rfl
  · cases ha
    rfl

theorem Sink.writeAll_buffer (data held : Bytes) :
    Sink.buffer.writeAll data held = (.ok (.done data.length), held ++ data) := by
  cases data with
  | nil => rw [Sink.writeAll_nil, List.append_nil]; rfl
  | cons b rest => exact Sink.writeAll_of_answer (.inl rfl)

namespace Escaping

/-- Two states of sinks that escape differ in their targets only, and these are related. -/
structure Related (S : σ → τ → Prop) (st : Escaping σ) (st' : Escaping τ) : Prop where
  /-- The targets are related. -/
  target : S st.target st'.target
  /-- The codec knows the same of what was read. -/
  reading : st.reading = st'.reading
  /-- As many bytes reached the targets. -/
  forwarded : st.forwarded = st'.forwarded
  /-- The last errors are the same. -/
  failure : st.failure = st'.failure

variable {st : Escaping σ} {st' : Escaping τ} {escape : Escape} {codec : Codec}

theorem Related.start {s : σ} {s' : τ} (hs : S s s') :
    (Escaping.start codec s).Related S (Escaping.start codec s') := ⟨hs, rfl, rfl, rfl⟩

theorem Related.conclude (h : st.Related S st') (codec : Codec) (said : EmitResult) :
    st.conclude codec said = st'.conclude codec said := by
  unfold Escaping.conclude
  rw [h.reading, h.forwarded, h.failure]

/-- The answer to a write is that it was taken whole, or that the sink gave up. -/
theorem forward_answer (k : Sink σ) (escape : Escape) (codec : Codec) (size : Nat)
    (text : Points) (st : Escaping σ) :
    (forward k escape codec size text st).1 = .took size ∨
      ∃ f, (forward k escape codec size text st).1 = .gaveUp f := by
  unfold forward
  split
  · exact .inr ⟨_, rfl⟩
  · split
    · exact .inr ⟨_, rfl⟩
    · split
      · exact .inr ⟨_, rfl⟩
      · exact .inl rfl
      · exact .inr ⟨_, rfl⟩

theorem write_answer (k : Sink σ) (escape : Escape) (codec : Codec) (data : Bytes)
    (st : Escaping σ) :
    (write k escape codec data st).1 = .took data.length ∨
      ∃ f, (write k escape codec data st).1 = .gaveUp f := by
  unfold write
  split
  · exact .inr ⟨_, rfl⟩
  · exact .inl rfl
  · exact forward_answer ..

/-- Two writes have the same answer, or the first one failed at its target. -/
def WritesShadow (S B : σ → τ → Prop) (w : WriteOutcome × Escaping σ)
    (w' : WriteOutcome × Escaping τ) : Prop :=
  w.1 = w'.1 ∧ w.2.Related S w'.2 ∨
    (∃ m, w.1 = .gaveUp (.relayed m)) ∧ B w.2.target w'.2.target

theorem forward_shadows (hk : k.Shadows k' S B) (escape : Escape) (codec : Codec) (size : Nat)
    (text : Points) (h : st.Related S st') :
    WritesShadow S B (forward k escape codec size text st)
      (forward k' escape codec size text st') := by
  unfold forward
  cases escape.run text with
  | error f => exact .inl ⟨rfl, h⟩
  | ok escaped =>
    dsimp only
    cases codec.encode escaped with
    | error f => exact .inl ⟨rfl, h⟩
    | ok bytes =>
      dsimp only
      have hb := hk.bytes bytes st.target st'.target [] [] h.target
      unfold Emission.bytes at hb
      generalize k.writeAll bytes st.target = w at hb ⊢
      generalize k'.writeAll bytes st'.target = w' at hb ⊢
      obtain ⟨outcome, s⟩ := w
      obtain ⟨outcome', s'⟩ := w'
      rcases hb with ⟨ho, hs, -⟩ | ⟨⟨r, ho, hr⟩, hb⟩
      · cases ho
        refine .inl ?_
        have hforwarded := h.forwarded
        rcases outcome with f | ⟨count, _ | e⟩
        · exact ⟨rfl, hs, h.reading, hforwarded, h.failure⟩
        · exact ⟨rfl, hs, h.reading, by simp only [hforwarded], h.failure⟩
        · exact ⟨rfl, hs, h.reading, by simp only [stop, hforwarded], rfl⟩
      -- the first one failed at its target; whatever the second one does there keeps it behind
      · cases ho
        refine .inr ?_
        obtain ⟨count, _ | e⟩ := r
        · cases hr
        · refine ⟨⟨e.message, rfl⟩, ?_⟩
          rcases outcome' with f | ⟨count', _ | e'⟩ <;> exact hb

theorem write_shadows (hk : k.Shadows k' S B) (escape : Escape) (codec : Codec) (data : Bytes)
    (h : st.Related S st') :
    WritesShadow S B (write k escape codec data st) (write k' escape codec data st') := by
  unfold write
  rw [h.reading]
  split
  · exact .inl ⟨rfl, h.target, rfl, h.forwarded, h.failure⟩
  · exact .inl ⟨rfl, h.target, rfl, h.forwarded, h.failure⟩
  · exact forward_shadows hk escape codec _ _ ⟨h.target, rfl, h.forwarded, h.failure⟩

end Escaping

/-- Sinks that escape into such sinks are such sinks. -/
theorem Sink.Shadows.escaping (hk : k.Shadows k' S B) (escape : Escape) (codec : Codec) :
    (k.escaping escape codec).Shadows (k'.escaping escape codec) (Escaping.Related S)
      (fun st st' => B st.target st'.target) where
  bytes data st st' runs runs' h := by
    cases data with
    | nil => exact .inl (.of_runs h)
    | cons b rest =>
      have hw := Escaping.write_shadows hk escape codec (b :: rest) h
      have ha := Escaping.write_answer k escape codec (b :: rest) st
      have ha' := Escaping.write_answer k' escape codec (b :: rest) st'
      unfold Emission.bytes
      rw [Sink.writeAll_of_answer (k := k.escaping escape codec) ha,
        Sink.writeAll_of_answer (k := k'.escaping escape codec) ha']
      rcases hw with ⟨hw, hs⟩ | ⟨⟨m, hm⟩, hb⟩
      · exact .inl ⟨congrArg (WriteOutcome.settle _) hw, hs, [], by simp, by simp⟩
      · refine .inr ⟨⟨.stopped 0 (.refused (.relayed m)), ?_, rfl⟩, hb⟩
        exact congrArg (WriteOutcome.settle _) hm
  behind st := (hk.behind st.target).escaping escape codec

/-- Sinks that escape into sinks that answer in the same way do so themselves. -/
theorem Sink.Alike.escaping (h : k.Alike k' S) (escape : Escape) (codec : Codec) :
    (k.escaping escape codec).Alike (k'.escaping escape codec) (Escaping.Related S) := by
  intro data st st' hs
  rcases Escaping.write_shadows h.shadows escape codec data hs with hw | ⟨-, hb⟩
  · exact hw
  · exact hb.elim

/-! ### Content side by side -/

theorem Emission.Alike.ofScript [DigitLimit] {e : Emission σ Returned} {e' : Emission τ Returned}
    (h : e.Alike S runs runs' e') : (ofScript e).Alike S runs runs' (ofScript e') := by
  obtain ⟨outcome, s, r⟩ := e
  obtain ⟨outcome', s', r'⟩ := e'
  obtain ⟨ho, hs, hr⟩ := h
  cases ho
  cases outcome with
  | ok returned => exact ⟨rfl, hs, hr⟩
  | error f => exact ⟨rfl, hs, hr⟩

/-- Emissions through sinks that escape, seen at their targets. -/
theorem Emission.Shadows.ofEscaping {e : Emission (Escaping σ) EmitResult}
    {e' : Emission (Escaping τ) EmitResult} (codec : Codec)
    (h : e.Shadows (Escaping.Related S) (fun st st' => B st.target st'.target) runs runs' e') :
    (ofEscaping codec e).Shadows S B runs runs' (ofEscaping codec e') := by
  obtain ⟨outcome, st, r⟩ := e
  obtain ⟨outcome', st', r'⟩ := e'
  rcases h with ⟨ho, hs, hr⟩ | ⟨⟨said, ho, hsaid⟩, hb⟩
  · cases ho
    cases outcome with
    | ok said => exact .inl ⟨hs.conclude codec said, hs.target, hr⟩
    | error f => exact .inl ⟨rfl, hs.target, hr⟩
  · cases ho
    refine .inr ⟨?_, ?_⟩
    -- an inner stop is a stop here, with the error of the target if that failed
    · obtain ⟨count, _ | error⟩ := said
      · cases hsaid
      · unfold Emission.ofEscaping Escaping.conclude
        cases st.failure <;> exact ⟨_, rfl, rfl⟩
    · cases outcome' <;> exact hb

/-- Content without scripts. -/
inductive Content.IsPlain {ρ : Type} : Content ω ρ → Prop where
  /-- Nothing is plain. -/
  | empty : IsPlain .empty
  /-- Bytes are plain. -/
  | data (bytes : Bytes) : IsPlain (.data bytes)
  /-- A value as text is plain. -/
  | print (value : Value) (encoding : Encoding) : IsPlain (.print value encoding)
  /-- Values in a format are plain. -/
  | format (format : Points) (values : List Value) (encoding : Encoding) :
    IsPlain (.format format values encoding)
  /-- Plain content between brackets is plain. -/
  | brackets (before after : Bytes) {inner : Content ω ρ} (h : IsPlain inner) :
    IsPlain (.brackets before inner after)
  /-- Plain content that is escaped is plain. -/
  | escaper (escape : Escape) (encoding : Encoding) {inner : Content ω ρ} (h : IsPlain inner) :
    IsPlain (.escaper escape encoding inner)
  /-- A template with plain content in its slots is plain. -/
  | bound (template : Template ω) {bindings : List (Option (Content ω ρ))}
    (h : ∀ c, some c ∈ bindings → IsPlain c) : IsPlain (.bound template bindings)

variable [DigitLimit]

/-- A script runs alike on sinks that answer in the same way. -/
def Script.RunsAlike (script : Script ω Empty) : Prop :=
  ∀ (σ τ : Type) (k : Sink σ) (k' : Sink τ) (S : σ → τ → Prop), k.Alike k' S →
    ∀ (s : σ) (s' : τ) (runs runs' : Runs), S s s' →
      (Script.run script k s runs).Alike S runs runs' (Script.run script k' s' runs')

/-- The emission of content to one sink shadows that to another. -/
def Content.EmitsShadow (c : Tree ω) (k : Sink σ) (k' : Sink τ) (S B : σ → τ → Prop) : Prop :=
  ∀ (s : σ) (s' : τ) (runs runs' : Runs), S s s' →
    (Tree.emit c k s runs).Shadows S B runs runs' (Tree.emit c k' s' runs')

theorem emitSlots_shadows_of (hk : k.Shadows k' S B) (t : Template ω) :
    ∀ bindings : List (Option (Tree ω)),
      (∀ c, some c ∈ bindings → c.EmitsShadow k k' S B) →
      ∀ (slot : Nat) (s : σ) (s' : τ) (runs runs' : Runs), S s s' →
        (emitSlots t slot bindings k s runs).Shadows S B runs runs'
          (emitSlots t slot bindings k' s' runs') := by
  intro bindings
  induction bindings with
  | nil => exact fun _ slot s s' runs runs' hs => .inl (.of_runs hs)
  | cons binding rest ih =>
    intro hbound slot s s' runs runs' hs
    have hnext := ih (fun c hc => hbound c (List.mem_cons_of_mem _ hc)) (slot + 1)
    -- what the second emission has left to do can only write
    have hbehind (s : σ) (s' : τ) (runs' : Runs) (hb : B s s') :
        B s (emitSlots t (slot + 1) rest k' s' runs').sink :=
      emitSlots_keeps_of (hk.behind s) t rest
        (fun c _ s' runs' hb => Tree.emit_keeps c (hk.behind s) s' runs' hb) _ s' runs' hb
    cases binding with
    | none =>
      refine Emission.Shadows.thenFragment hk (.inl ?_) hbehind hnext
      cases t.nameAt slot <;> exact .of_runs hs
    | some c =>
      refine Emission.Shadows.thenFragment hk ?_ hbehind hnext
      exact (hbound c List.mem_cons_self s s' runs runs' hs).settled

/-- **Emissions side by side**: if byte strings are written to both sinks alike or stop at the
first one, then so does plain content.  Content with scripts needs sinks that answer alike. -/
theorem Tree.emit_shadows (c : Tree ω) : ∀ {σ τ : Type} {k : Sink σ} {k' : Sink τ}
    {S B : σ → τ → Prop}, k.Shadows k' S B → c.IsPlain ∨ k.Alike k' S → c.EmitsShadow k k' S B := by
  induction c using Content.induct Script.RunsAlike with
  | empty => exact fun _ _ s s' runs runs' hs => .inl (.of_runs hs)
  | data bytes => exact fun hk _ s s' runs runs' hs => hk.bytes bytes s s' runs runs' hs
  | print value encoding =>
    intro σ τ k k' S B hk _ s s' runs runs' hs
    simp only [Tree.emit, Emission.bytesOr]
    split
    · exact hk.bytes _ s s' runs runs' hs
    · exact .inl (.of_runs hs)
  | format format values encoding =>
    intro σ τ k k' S B hk _ s s' runs runs' hs
    simp only [Tree.emit]
    split
    · exact hk.bytes _ s s' runs runs' hs
    · exact .inl (.of_runs hs)
    · exact .inl (.of_runs hs)
  | generator label script ih =>
    intro σ τ k k' S B _ h s s' runs runs' hs
    -- a script sees every answer, so only sinks that answer alike will do
    rcases h with h | h
    · cases h
    · have hrun := (ih σ τ k k' S h s s' (runs ++ label.toList) (runs' ++ label.toList) hs).since
      exact .inl hrun.ofScript
  | brackets before inner after ih =>
    intro σ τ k k' S B hk h s s' runs runs' hs
    have hinner : inner.EmitsShadow k k' S B := by
      refine ih hk (h.imp_left fun h => ?_)
      cases h with
      | brackets before after h => exact h
    simp only [Tree.emit]
    refine ((Emission.Shadows.someBytes hk before hs).followedBy ?_ hinner).followedBy ?_ ?_
    · exact fun s s' runs' hb => Tree.emit_keeps inner (hk.behind s) s' runs' hb
    · exact fun s s' runs' hb => Emission.keeps_someBytes (hk.behind s) after hb runs'
    · exact fun s s' runs runs' hs => Emission.Shadows.someBytes hk after hs
  | escaper escape encoding inner ih =>
    intro σ τ k k' S B hk h s s' runs runs' hs
    simp only [Tree.emit]
    split
    · next codec _ =>
      refine (ih (hk.escaping escape codec) ?_ _ _ runs runs' (.start hs)).ofEscaping codec
      rcases h with h | h
      · cases h with
        | escaper _ _ h => exact .inl h
      · exact .inr (h.escaping escape codec)
    · exact .inl (.of_runs hs)
  | bound template bindings ih =>
    intro σ τ k k' S B hk h
    refine emitSlots_shadows_of hk template bindings (fun c hc => ih c hc hk ?_) 0
    refine h.imp_left fun h => ?_
    cases h with
    | bound _ h => exact h c hc
  | shared ref => exact ref.elim
  | done returned => exact fun _ _ _ _ _ _ s s' runs runs' hs => .of_runs hs
  | giveUp f => exact fun _ _ _ _ _ _ s s' runs runs' hs => .of_runs hs
  | write data next ih =>
    intro σ τ k k' S h s s' runs runs' hs
    obtain ⟨ha, hs⟩ := h data s s' hs
    simp only [Script.run, ha]
    exact ih _ σ τ k k' S h _ _ runs runs' hs
  | emit content next ihContent ih =>
    intro σ τ k k' S h s s' runs runs' hs
    simp only [Script.run]
    refine ((ihContent h.shadows (.inr h) s s' runs runs' hs).alike).bind ?_
    exact fun r s s' runs runs' hs => ih r σ τ k k' S h s s' runs runs' hs

/-- Emissions of content to sinks that answer in the same way agree. -/
theorem Tree.emit_alike (c : Tree ω) (h : k.Alike k' S) {s : σ} {s' : τ} (hs : S s s')
    (runs runs' : Runs) :
    (Tree.emit c k s runs).Alike S runs runs' (Tree.emit c k' s' runs') :=
  (Tree.emit_shadows c h.shadows (.inr h) s s' runs runs' hs).alike

end Stencil
