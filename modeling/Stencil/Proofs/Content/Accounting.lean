import Stencil.Proofs.Content.Writing

/-!
# Counting what reached the sink

A sink honours its contract if it answers every write with the number of bytes it took, which come
first among those it was given, or gives up and takes none.  So it is honest; but it may take
little, stall, or fail at any byte.  Content without scripts still tells exactly how much reached
the sink, and what reached it is the beginning of what the content would write to a buffer.  Escaped
content tells so whatever scripts it has.

## Main definitions

* `Sink.Honours`, `Sink.Willing` — sinks that keep their contract, and those that always go on.
* `Emission.Accounts` — the result of an emission counts the bytes that the sink took.

## Main results

* `Tree.emit_accounts` — the count is that of the bytes an honest sink took.
* `Tree.emit_escaper_accounts` — so it is for all content that is escaped.
* `Tree.emit_counts_prefix` — these are the first bytes of what a buffer would hold.
-/

namespace Stencil

variable {σ ω : Type} {k : Sink σ} {held : σ → Bytes}

/-! ### The contract of a sink -/

/-- The sink takes the first bytes of a write and says how many, or all, or refuses; `held` is what
it holds. -/
structure Sink.Honours (k : Sink σ) (held : σ → Bytes) : Prop where
  /-- It takes as many bytes as it says. -/
  took : ∀ data s n, (k.write data s).1 = .took n →
    ∃ taken, taken <+: data ∧ held (k.write data s).2 = held s ++ taken ∧ n = taken.length
  /-- It takes all bytes if it says so. -/
  tookAll : ∀ data s, (k.write data s).1 = .tookAll → held (k.write data s).2 = held s ++ data
  /-- It gives up by a refusal, and takes nothing. -/
  gaveUp : ∀ data s f, (k.write data s).1 = .gaveUp f →
    f.isRefusal = true ∧ held (k.write data s).2 = held s

/-- The sink never gives up, and takes at least one byte of those it is given. -/
def Sink.Willing (k : Sink σ) : Prop :=
  ∀ data s, data ≠ [] →
    (k.write data s).1 = .tookAll ∨ ∃ n, 0 < n ∧ (k.write data s).1 = .took n

/-- What a result has to say of the bytes `taken` out of `data`. -/
structure EmitResult.Covers (r : EmitResult) (taken data : Bytes) : Prop where
  /-- They are the first ones. -/
  first : taken <+: data
  /-- They are counted. -/
  count : r.count = taken.length
  /-- An error counts them too. -/
  error : ∀ e, r.error = some e → e.count = taken.length
  /-- They are all if nothing stopped. -/
  whole : r.isOk = true → taken = data

/-- What a sink took of a byte string is covered when the writing is over. -/
theorem Sink.Wrote.covers {data : Bytes} {s s' : σ} {r : EmitResult} {calls : List (Call σ)}
    (h : Wrote k held data s r s' calls) : r.Covers (data.take r.count.toNat) data := by
  have hnonneg := h.nonneg
  have hle := h.le
  have hlen : r.count = (data.take r.count.toNat).length := by
    rw [List.length_take]
    omega
  refine ⟨List.take_prefix _ _, hlen, fun e he => (h.error e he).1.trans hlen, fun hok => ?_⟩
  rw [h.ok_iff.1 hok, Int.toNat_natCast, List.take_length]

/-- A sink that honours the contract is honest. -/
theorem Sink.Honours.honest (hk : k.Honours held) : k.Honest held where
  took data s n hn := by
    obtain ⟨taken, hfirst, hheld, rfl⟩ := hk.took data s n hn
    rw [Int.toNat_natCast, ← List.prefix_iff_eq_take.1 hfirst]
    exact ⟨Int.ofNat_le.2 hfirst.length_le, hheld⟩
  tookAll := hk.tookAll
  gaveUp := hk.gaveUp

/-- A sink that always goes on does not fail. -/
theorem Sink.Willing.not_fails (hw : k.Willing) {c : Call σ} (hc : c.data ≠ []) : ¬ c.Fails k := by
  rw [Call.Fails]
  rcases hw c.data c.before hc with hanswer | ⟨n, hn, hanswer⟩
  · rw [hanswer, WriteOutcome.isFailure]
    exact Bool.false_ne_true
  · rw [hanswer, WriteOutcome.isFailure, decide_eq_true_eq]
    omega

/-- A byte string is written to a sink up to some byte, and the result tells up to which. -/
theorem Sink.Honest.writeAll (hk : k.Honest held) (data : Bytes) (s : σ) :
    ∃ r taken, (k.writeAll data s).1 = .ok r ∧ held (k.writeAll data s).2 = held s ++ taken ∧
      r.Covers taken data ∧ (k.Willing → r.isOk = true) := by
  obtain ⟨r, s', calls, hrun, -, hwrote⟩ := hk.writeAll_logged data s []
  rw [hrun]
  refine ⟨r, _, rfl, hwrote.taken, hwrote.covers, fun hw => ?_⟩
  cases hok : r.isOk with
  | true => rfl
  | false =>
    obtain ⟨c, hc, hfail⟩ := hwrote.failed_iff.1 hok
    exact absurd hfail (hw.not_fails (hwrote.data_ne_nil hc))

/-! ### The count of an emission -/

/-- The result of an emission that began in the state `s`, and its error, count the bytes that the
sink took since. -/
def Emission.Accounts (held : σ → Bytes) (s : σ) (e : Emission σ EmitResult) : Prop :=
  ∀ r, e.outcome = .ok r → ∃ taken, held e.sink = held s ++ taken ∧ r.count = taken.length ∧
    ∀ error, r.error = some error → error.count = taken.length

namespace Emission

variable {s : σ} {e : Emission σ EmitResult} {next : σ → Runs → Emission σ EmitResult}

theorem accounts_nothing (s : σ) (runs : Runs) : (nothing s runs).Accounts held s := by
  intro r hr
  cases hr
  exact ⟨[], (List.append_nil _).symm, rfl, nofun⟩

theorem accounts_stopped (s : σ) (runs : Runs) (cause : EmitCause) :
    Accounts held s ⟨.ok (.stopped 0 cause), s, runs⟩ := by
  intro r hr
  cases hr
  refine ⟨[], (List.append_nil _).symm, rfl, ?_⟩
  intro error he
  cases he
  rfl

theorem accounts_fault (s : σ) (runs : Runs) (f : Fault) : Accounts held s ⟨.error f, s, runs⟩ :=
  nofun

theorem accounts_bytes (hk : k.Honest held) (data : Bytes) (s : σ) (runs : Runs) :
    (bytes k data s runs).Accounts held s := by
  obtain ⟨r, taken, hr, hheld, hcovers, -⟩ := hk.writeAll data s
  intro r' hr'
  cases hr.symm.trans hr'
  exact ⟨taken, hheld, hcovers.count, hcovers.error⟩

theorem accounts_someBytes (hk : k.Honest held) (data : Bytes) (s : σ) (runs : Runs) :
    (someBytes k data s runs).Accounts held s := by
  unfold someBytes
  split
  · exact accounts_nothing s runs
  · exact accounts_bytes hk data s runs

/-- Counts are added where emissions follow each other. -/
theorem Accounts.andThen {e' : Emission σ EmitResult} {r : EmitResult} (h : e.Accounts held s)
    (ho : e.outcome = .ok r) (h' : e'.Accounts held e.sink) :
    (e'.map r.andThen).Accounts held s := by
  intro r' hr'
  obtain ⟨taken, hheld, hcount, -⟩ := h r ho
  obtain ⟨outcome, s', runs⟩ := e'
  cases outcome with
  | error f => cases hr'
  | ok last =>
    cases hr'
    obtain ⟨taken', hheld', hcount', -⟩ := h' last rfl
    -- what both took is in a row at the sink, and `andThen` adds the counts
    have hsum : (r.andThen last).count = (taken ++ taken').length := by
      rw [EmitResult.count_andThen, hcount, hcount', List.length_append, Int.natCast_add]
    refine ⟨taken ++ taken', ?_, hsum, ?_⟩
    · rw [← List.append_assoc, ← hheld]
      exact hheld'
    · intro error he
      rw [← hsum]
      unfold EmitResult.andThen at he ⊢
      split at he
      · cases he
      · cases he
        rfl

theorem Accounts.followedBy (h : e.Accounts held s)
    (hnext : ∀ s runs, (next s runs).Accounts held s) : (e.followedBy next).Accounts held s := by
  cases ho : e.outcome with
  | error f =>
    rw [followedBy_of_fault ho]
    exact h
  | ok r =>
    cases hr : r.isOk with
    | false =>
      rw [followedBy_of_stopped ho hr]
      exact h
    | true =>
      rw [followedBy_of_done ho hr]
      exact h.andThen ho (hnext e.sink e.runs)

theorem Accounts.settled (h : e.Accounts held s) : e.settled.Accounts held s := by
  rw [settled_eq_map]
  exact (accounts_nothing s []).andThen rfl h

theorem Accounts.thenFragment (hk : k.Honest held) (h : e.Accounts held s)
    {fragment : Option Bytes} (hnext : ∀ s runs, (next s runs).Accounts held s) :
    (e.thenFragment k fragment next).Accounts held s := by
  cases fragment with
  | none => exact h
  | some f => exact (h.followedBy fun s runs => accounts_bytes hk f s runs).followedBy hnext

end Emission

namespace Escaping

/-- The sink that escapes counts what reached its target since that was in the state `s`. -/
def Counts (held : σ → Bytes) (s : σ) (st : Escaping σ) : Prop :=
  ∃ taken, held st.target = held s ++ taken ∧ st.forwarded = taken.length

theorem keeps_counts (hk : k.Honest held) (escape : Escape) (codec : Codec) (s : σ) :
    (k.escaping escape codec).Keeps (Counts held s) := by
  rintro data st ⟨taken, hheld, hforwarded⟩
  simp only [Sink.escaping, Escaping.write]
  split
  · exact ⟨taken, hheld, hforwarded⟩
  · exact ⟨taken, hheld, hforwarded⟩
  · unfold forward
    split
    · exact ⟨taken, hheld, hforwarded⟩
    · split
      · exact ⟨taken, hheld, hforwarded⟩
      · next bytes _ =>
        obtain ⟨r, more, hr, hmore, hcovers, -⟩ := hk.writeAll bytes st.target
        dsimp only
        generalize k.writeAll bytes st.target = w at hr hmore ⊢
        obtain ⟨outcome, target⟩ := w
        cases hr
        -- what the target took is counted even if the write to it failed after that
        have hsum : st.forwarded + r.count = (taken ++ more).length := by
          rw [hforwarded, hcovers.count, List.length_append, Int.natCast_add]
        have hheld' : held target = held s ++ (taken ++ more) := by
          rw [← List.append_assoc, ← hheld]
          exact hmore
        obtain ⟨count, _ | error⟩ := r
        · exact ⟨taken ++ more, hheld', hsum⟩
        · exact ⟨taken ++ more, hheld', hsum⟩

/-- A result through the sink, and its error if it has one, have the count of the sink. -/
theorem count_of_conclude {st : Escaping σ} {codec : Codec} {said r : EmitResult}
    (h : st.conclude codec said = .ok r) :
    r.count = st.forwarded ∧ ∀ error, r.error = some error → error.count = st.forwarded := by
  have hfailed (e : EmitError) : (EmitResult.failed st.forwarded e).count = st.forwarded ∧
      ∀ error, (EmitResult.failed st.forwarded e).error = some error →
        error.count = st.forwarded := by
    refine ⟨rfl, fun error herror => ?_⟩
    cases herror
    rfl
  unfold Escaping.conclude at h
  split at h
  · cases h
    exact hfailed _
  · cases h
    exact hfailed _
  · split at h
    · cases h
      exact ⟨rfl, fun error herror => by cases herror⟩
    · split at h <;> cases h
      exact ⟨rfl, fun error herror => by cases herror; rfl⟩

/-- The result of an emission through the sink is made of its own count. -/
theorem Counts.conclude {s : σ} {st : Escaping σ} (h : st.Counts held s) (codec : Codec)
    (said : EmitResult) (runs : Runs) :
    Emission.Accounts held s ⟨st.conclude codec said, st.target, runs⟩ := by
  obtain ⟨taken, hheld, hforwarded⟩ := h
  intro r hr
  obtain ⟨hcount, herror⟩ := count_of_conclude hr
  rw [hforwarded] at hcount herror
  exact ⟨taken, hheld, hcount, herror⟩

end Escaping

section Content

variable [DigitLimit]

/-- The result of an emission of escaped content counts the bytes that the sink took, whatever the
content is. -/
theorem Tree.emit_escaper_accounts (hk : k.Honest held) (escape : Escape) (encoding : Encoding)
    (inner : Tree ω) (s : σ) (runs : Runs) :
    (Tree.emit (.escaper escape encoding inner) k s runs).Accounts held s := by
  simp only [Tree.emit]
  split
  · next codec _ =>
    -- the count of the inner emission is dropped; that of the sink in front is kept by every write
    have hcounts := Tree.emit_keeps inner (Escaping.keeps_counts hk escape codec s)
      (.start codec s) runs ⟨[], (List.append_nil _).symm, rfl⟩
    unfold Emission.ofEscaping
    split
    · exact hcounts.conclude codec _ _
    · exact fun r hr => by cases hr
  · exact Emission.accounts_fault s runs _

theorem emitSlots_accounts_of (hk : k.Honest held) (t : Template ω) :
    ∀ bindings : List (Option (Tree ω)),
      (∀ c, some c ∈ bindings → ∀ s runs, (Tree.emit c k s runs).Accounts held s) →
      ∀ (slot : Nat) (s : σ) (runs : Runs),
        (emitSlots t slot bindings k s runs).Accounts held s := by
  intro bindings
  induction bindings with
  | nil => exact fun _ slot s runs => Emission.accounts_fault s runs _
  | cons binding rest ih =>
    intro hbound slot s runs
    have hnext := ih (fun c hc => hbound c (List.mem_cons_of_mem _ hc)) (slot + 1)
    cases binding with
    | none =>
      refine Emission.Accounts.thenFragment hk ?_ hnext
      cases t.nameAt slot with
      | none => exact Emission.accounts_nothing s runs
      | some name => exact Emission.accounts_stopped s runs _
    | some c =>
      exact Emission.Accounts.thenFragment hk (hbound c List.mem_cons_self s runs).settled hnext

/-- The result of an emission of plain content counts the bytes that the sink took. -/
theorem Tree.emit_accounts {c : Tree ω} (hc : c.IsPlain) (hk : k.Honest held) :
    ∀ (s : σ) (runs : Runs), (Tree.emit c k s runs).Accounts held s := by
  induction hc with
  | empty => exact fun s runs => Emission.accounts_nothing s runs
  | data bytes => exact fun s runs => Emission.accounts_bytes hk bytes s runs
  | print value encoding =>
    intro s runs
    simp only [Tree.emit, Emission.bytesOr]
    split
    · exact Emission.accounts_bytes hk _ s runs
    · exact Emission.accounts_fault s runs _
  | format format values encoding =>
    intro s runs
    simp only [Tree.emit]
    split
    · exact Emission.accounts_bytes hk _ s runs
    · exact Emission.accounts_stopped s runs _
    · exact Emission.accounts_fault s runs _
  | brackets before after _ ih =>
    intro s runs
    simp only [Tree.emit]
    refine ((Emission.accounts_someBytes hk before s runs).followedBy ih).followedBy ?_
    exact fun s runs => Emission.accounts_someBytes hk after s runs
  | escaper escape encoding _ _ => exact Tree.emit_escaper_accounts hk escape encoding _
  | bound template _ ih => exact emitSlots_accounts_of hk template _ ih 0

end Content

/-! ### Recording sinks -/

/-- The recording sinks that honour the contract: those that do not misreport, and refuse if they
give up. -/
def SinkStyle.isHonest : SinkStyle → Bool
  | answering _ | exaggerating _ => false
  | guarded _ f => f.isRefusal
  | _ => true

theorem SinkStyle.honours (style : SinkStyle) (h : style.isHonest = true) :
    style.sink.Honours Recording.held := by
  have hprefix (size : Nat) (data : Bytes) : data.take size <+: data := List.take_prefix _ _
  constructor
  · intro data r n hn
    cases style <;> simp only [sink, answer, takeUpTo, Recording.take, isHonest] at hn h ⊢
    case buffer => cases hn; exact ⟨data, List.prefix_rfl, rfl, rfl⟩
    case silent => cases hn
    case limited size =>
      split at hn
      · cases hn
      · next hfree =>
        cases hn
        rw [if_neg hfree]
        exact ⟨_, hprefix _ _, rfl, rfl⟩
    case short size => cases hn; exact ⟨_, hprefix _ _, rfl, rfl⟩
    case stalling size => cases hn; exact ⟨_, hprefix _ _, rfl, rfl⟩
    case answering => cases h
    case exaggerating => cases h
    case guarded size f =>
      split at hn
      · cases hn
      · next hfree =>
        cases hn
        rw [if_neg hfree]
        exact ⟨data, List.prefix_rfl, rfl, rfl⟩
    case closed => cases hn
  · intro data r hall
    cases style <;> simp only [sink, answer, takeUpTo] at hall ⊢ <;>
      first
      | rfl
      | cases hall
      | (split at hall <;> cases hall)
  · intro data r f hf
    cases style <;> simp only [sink, answer, takeUpTo, isHonest] at hf h ⊢
    case limited size =>
      split at hf
      · next hfull =>
        cases hf
        rw [if_pos hfull]
        exact ⟨rfl, rfl⟩
      · cases hf
    case guarded size g =>
      split at hf
      · next hfull =>
        cases hf
        rw [if_pos hfull]
        exact ⟨h, rfl⟩
      · cases hf
    case closed =>
      cases hf
      exact ⟨rfl, trivial⟩
    all_goals cases hf

/-- A recording sink that takes some bytes at each write always goes on. -/
theorem SinkStyle.short_willing (size : Nat) : (short (size + 1)).sink.Willing := by
  intro data r hdata
  refine .inr ⟨_, ?_, rfl⟩
  cases data with
  | nil => exact absurd rfl hdata
  | cons b rest =>
    simp only [List.take_succ_cons, List.length_cons]
    omega

/-! ### Against a buffer -/

/-- The sink took, after `base`, what the buffer took. -/
def HoldsAlike (held : σ → Bytes) (base : Bytes) (s : σ) (full : Bytes) : Prop :=
  held s = base ++ full

/-- The sink took, after `base`, the first of what the buffer took. -/
def HoldsFirst (held : σ → Bytes) (base : Bytes) (s : σ) (full : Bytes) : Prop :=
  ∃ taken, held s = base ++ taken ∧ taken <+: full

theorem keeps_holdsFirst (held : σ → Bytes) (base : Bytes) (s : σ) :
    Sink.buffer.Keeps (HoldsFirst held base s) := by
  rintro data full ⟨taken, hheld, hfirst⟩
  exact ⟨taken, hheld, hfirst.trans (List.prefix_append full data)⟩

/-- A sink that honours its contract agrees with a buffer, or stops and stays behind. -/
theorem Sink.Honours.shadows (hk : k.Honours held) (base : Bytes) :
    k.Shadows Sink.buffer (HoldsAlike held base) (HoldsFirst held base) where
  bytes data s full runs runs' hs := by
    obtain ⟨r, taken, hr, hheld, hcovers, -⟩ := hk.honest.writeAll data s
    have hmore : held (k.writeAll data s).2 = base ++ (full ++ taken) := by
      rw [hheld, hs, List.append_assoc]
    cases hok : r.isOk with
    | true =>
      have hwhole := hcovers.whole hok
      subst hwhole
      refine .inl ⟨?_, ?_, [], by simp [Emission.bytes], by simp [Emission.bytes]⟩
      · obtain ⟨count, _ | error⟩ := r
        · have hcount : count = taken.length := hcovers.count
          subst hcount
          simp only [Emission.bytes, Sink.writeAll_buffer]
          exact hr
        · cases hok
      · simp only [Emission.bytes, Sink.writeAll_buffer]
        exact hmore
    | false =>
      refine .inr ⟨⟨r, hr, hok⟩, full ++ taken, hmore, ?_⟩
      simp only [Emission.bytes, Sink.writeAll_buffer]
      exact (List.prefix_append_right_inj full).2 hcovers.first
  behind := keeps_holdsFirst held base

/-- A sink that always goes on agrees with a buffer. -/
theorem Sink.Honours.shadows_of_willing (hk : k.Honours held) (hw : k.Willing) (base : Bytes) :
    k.Shadows Sink.buffer (HoldsAlike held base) (fun _ _ => False) where
  bytes data s full runs runs' hs := by
    rcases (hk.shadows base).bytes data s full runs runs' hs with h | ⟨⟨r, hr, hstop⟩, -⟩
    · exact .inl h
    · obtain ⟨r', -, hr', -, -, hok⟩ := hk.honest.writeAll data s
      cases hr.symm.trans hr'
      rw [hok hw] at hstop
      cases hstop
  behind _ _ _ hb := hb

/-- **What reached the sink is counted to the byte.**  When plain content is emitted to a sink that
honours its contract and the emission has a result, then this and its error count the bytes that the
sink took, and these are the first of those that the content writes to a buffer.  If the sink always
goes on, it takes them all and the outcome is the same. -/
theorem Tree.emit_counts_prefix [DigitLimit] {c : Tree ω} (hc : c.IsPlain) (hk : k.Honours held)
    (s : σ) (runs : Runs) :
    (∀ r, (Tree.emit c k s runs).outcome = .ok r →
      ∃ taken, held (Tree.emit c k s runs).sink = held s ++ taken ∧
        r.count = taken.length ∧
        (∀ error, r.error = some error → error.count = taken.length) ∧
        taken <+: (Tree.emit c Sink.buffer [] runs).sink) ∧
    (k.Willing →
      held (Tree.emit c k s runs).sink = held s ++ (Tree.emit c Sink.buffer [] runs).sink ∧
        (Tree.emit c k s runs).outcome = (Tree.emit c Sink.buffer [] runs).outcome) := by
  have hstart : HoldsAlike held (held s) s [] := (List.append_nil _).symm
  constructor
  · intro r hr
    obtain ⟨taken, hheld, hcount, herror⟩ := Tree.emit_accounts hc hk.honest s runs r hr
    refine ⟨taken, hheld, hcount, herror, ?_⟩
    -- the bytes that were counted are those that the comparison with the buffer speaks of
    rcases Tree.emit_shadows c (hk.shadows (held s)) (.inl hc) s [] runs runs hstart with
      hagree | ⟨-, taken', hheld', hfirst⟩
    · have hsame := List.append_cancel_left (hheld.symm.trans hagree.sink)
      exact hsame ▸ List.prefix_rfl
    · have hsame := List.append_cancel_left (hheld.symm.trans hheld')
      rw [hsame]
      exact hfirst
  · intro hw
    -- such a sink is never stopped, so the emissions agree
    have hshadow := Tree.emit_shadows c (hk.shadows_of_willing hw (held s)) (.inl hc) s [] runs runs
    have hagree := (hshadow hstart).alike
    exact ⟨hagree.sink, hagree.outcome⟩

/-- A template with one placeholder between brackets, escaped on the way, and in the placeholder a
text that is escaped once more. -/
def escapedTwice : Tree (Wrap Empty) :=
  .escaper Escape.html .standard <| .brackets [60]
    (.bound (((Template.blank "t").nameLast "n" none).addStatic [38, 97])
      [some (.escaper Escape.html .standard (.print (.str "é<") .standard)), none]) [62]

theorem escapedTwice_isPlain : escapedTwice.IsPlain := by
  refine .escaper _ _ (.brackets _ _ (.bound _ ?_))
  intro c hc
  simp only [List.mem_cons, Option.some.injEq, reduceCtorEq, List.not_mem_nil, or_false] at hc
  subst hc
  exact .escaper _ _ (.print _ _)

theorem Tree.emit_counts_prefix_escapedTwice :
    (∃ taken,
      (Tree.emit escapedTwice (SinkStyle.limited 11).sink .empty []).sink.held = [] ++ taken ∧
        taken.length = 11 ∧ taken <+: (Tree.emit escapedTwice Sink.buffer [] []).sink) ∧
    (Tree.emit escapedTwice (SinkStyle.short 2).sink .empty []).sink.held =
      [] ++ (Tree.emit escapedTwice Sink.buffer [] []).sink := by
  constructor
  · have hcount :
        (Tree.emit escapedTwice (SinkStyle.limited 11).sink .empty []).outcome.toOption.map
          EmitResult.count = some 11 := by decide
    cases hr : (Tree.emit escapedTwice (SinkStyle.limited 11).sink .empty []).outcome with
    | error f =>
      rw [hr] at hcount
      cases hcount
    | ok r =>
      rw [hr] at hcount
      have hr11 : r.count = 11 := Option.some.inj hcount
      obtain ⟨taken, hheld, htaken, -, hfirst⟩ := (Tree.emit_counts_prefix escapedTwice_isPlain
        (SinkStyle.honours (.limited 11) rfl) .empty []).1 r hr
      exact ⟨taken, hheld, by omega, hfirst⟩
  · exact ((Tree.emit_counts_prefix escapedTwice_isPlain
      (SinkStyle.honours (.short 2) rfl) .empty []).2 (SinkStyle.short_willing 1)).1

end Stencil
