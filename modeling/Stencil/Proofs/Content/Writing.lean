import Stencil.Proofs.Content.Shadow
import Stencil.Stock.Sinks

/-!
# Writing to a sink that may do little

A sink is honest if its answers say what it did.  It takes the first bytes of a write and says how
many; it takes all and says so; or it takes nothing, and says so by a number that is not positive or
by a refusal.  What it does may depend on all that happened before.

A byte string is written to such a sink by one call after the other.  A log of these calls shows
that each of them is for just the bytes that the sink has not taken yet, and that all but the last
one took some.  So there are at most as many calls as bytes, and the result tells how many bytes the
sink took.

## Main definitions

* `Sink.Honest` — sinks whose answers say what they did.
* `Sink.Call`, `Sink.logged` — the calls of a sink, and the sink with a log of them.
* `Sink.Writing` — some bytes of a byte string were taken so far; kept by every call but the last.
* `Sink.Wrote` — what a result and a log have to say when the writing is over.

## Main results

* `Sink.Honest.writeAll_logged` — every byte string is written so.
* `Sink.Honest.writeAll_exact` — and it is so however many more calls are allowed.
-/

namespace Stencil

variable {σ : Type} {k : Sink σ} {held : σ → Bytes}

/-- Whether the sink gave up or took nothing. -/
def WriteOutcome.isFailure : WriteOutcome → Bool
  | .took count => decide (count ≤ 0)
  | .tookAll => false
  | .gaveUp _ => true

namespace Sink

/-- The answers of the sink say what it did; `held` is what it holds. -/
structure Honest (k : Sink σ) (held : σ → Bytes) : Prop where
  /-- It takes the first bytes, as many as it says, and none if that is not positive. -/
  took : ∀ data s n, (k.write data s).1 = .took n →
    n ≤ data.length ∧ held (k.write data s).2 = held s ++ data.take n.toNat
  /-- It takes all bytes if it says so. -/
  tookAll : ∀ data s, (k.write data s).1 = .tookAll → held (k.write data s).2 = held s ++ data
  /-- It gives up by a refusal, and takes nothing. -/
  gaveUp : ∀ data s f, (k.write data s).1 = .gaveUp f →
    f.isRefusal = true ∧ held (k.write data s).2 = held s

/-! ### The calls of a sink -/

/-- A write that a sink was asked for. -/
structure Call (σ : Type) where
  /-- The state of the sink before it. -/
  before : σ
  /-- The bytes that the sink was given. -/
  data : Bytes

/-- The sink failed at the call. -/
def Call.Fails (k : Sink σ) (c : Call σ) : Prop := (k.write c.data c.before).1.isFailure = true

/-- The sink with a log of all its calls. -/
def logged (k : Sink σ) : Sink (σ × List (Call σ)) :=
  ⟨fun data s =>
    let (answer, after) := k.write data s.1
    (answer, after, s.2 ++ [⟨s.1, data⟩])⟩

theorem logged_write (k : Sink σ) (data : Bytes) (s : σ) (log : List (Call σ)) :
    k.logged.write data (s, log) =
      ((k.write data s).1, (k.write data s).2, log ++ [⟨s, data⟩]) := rfl

/-- A log does not change what a sink does. -/
theorem logged_alike (k : Sink σ) : k.logged.Alike k fun s s' => s.1 = s' := by
  rintro data s s' rfl
  exact ⟨rfl, rfl⟩

/-- The call is for the bytes of `data` that were not taken since the state `start`, of which there
are some. -/
def Call.AsksForRest (held : σ → Bytes) (data : Bytes) (start : σ) (c : Call σ) : Prop :=
  ∃ n, n < data.length ∧ held c.before = held start ++ data.take n ∧ c.data = data.drop n

/-! ### The loop -/

/-- A write for some bytes, and what comes after it. -/
theorem writeRest_of_ne_nil (k : Sink σ) (size fuel : Nat) (count : Int) {rest : Bytes}
    (hrest : rest ≠ []) (s : σ) :
    k.writeRest size (fuel + 1) count rest s =
      match k.write rest s with
      | (.tookAll, s) => (.ok (.done size), s)
      | (.gaveUp f, s) =>
        (if f.isRefusal then .ok (.stopped count (.refused f)) else .error f, s)
      | (.took n, s) =>
        if n ≤ 0 then (.ok (.stopped count (.refused (.shortWrite count size))), s)
        else k.writeRest size fuel (count + n) (rest.drop n.toNat) s := by
  cases rest with
  | nil => exact absurd rfl hrest
  | cons b rest => rfl

/-- One call for each byte is enough, as every call that is not the last one takes some. -/
theorem writeRest_congr (k : Sink σ) (size : Nat) : ∀ (fuel fuel' : Nat) (count : Int)
    (rest : Bytes) (s : σ), rest.length ≤ fuel → rest.length ≤ fuel' →
      k.writeRest size fuel count rest s = k.writeRest size fuel' count rest s := by
  intro fuel
  induction fuel with
  | zero =>
    intro fuel' count rest s hle _
    obtain rfl : rest = [] := List.length_eq_zero_iff.1 (Nat.le_zero.1 hle)
    rw [writeRest_nil, writeRest_nil]
  | succ fuel ih =>
    intro fuel' count rest s hle hle'
    by_cases hrest : rest = []
    · rw [hrest, writeRest_nil, writeRest_nil]
    · have hpos := List.length_pos_iff.2 hrest
      cases fuel' with
      | zero => omega
      | succ fuel' =>
        rw [writeRest_of_ne_nil _ _ _ _ hrest, writeRest_of_ne_nil _ _ _ _ hrest]
        split
        · rfl
        · rfl
        · next n s' _ =>
          split
          · rfl
          · next hn =>
            have hdrop : (rest.drop n.toNat).length = rest.length - n.toNat := List.length_drop
            exact ih fuel' _ _ _ (by omega) (by omega)

/-- So far `n` bytes of `data` were taken since the state `start`, by calls each of which took
some. -/
structure Writing (k : Sink σ) (held : σ → Bytes) (data : Bytes) (start : σ) (n : Nat) (s : σ)
    (calls : List (Call σ)) : Prop where
  /-- There are so many bytes. -/
  le : n ≤ data.length
  /-- The first ones are in the sink. -/
  taken : held s = held start ++ data.take n
  /-- There was at most one call for each of them. -/
  few : calls.length ≤ n
  /-- Each call was for the rest. -/
  asked : ∀ c ∈ calls, c.AsksForRest held data start
  /-- None failed. -/
  went : ∀ c ∈ calls, ¬ c.Fails k

/-- The writing of `data` from the state `start` is over, with the result `r`, in the state `s`,
after some calls. -/
structure Wrote (k : Sink σ) (held : σ → Bytes) (data : Bytes) (start : σ) (r : EmitResult) (s : σ)
    (calls : List (Call σ)) : Prop where
  /-- No negative number of bytes is counted. -/
  nonneg : 0 ≤ r.count
  /-- No more bytes are counted than there are. -/
  le : r.count ≤ data.length
  /-- The sink got the bytes that are counted, which are the first ones. -/
  taken : held s = held start ++ data.take r.count.toNat
  /-- Nothing stopped the writing just if all bytes are counted. -/
  ok_iff : r.isOk = true ↔ r.count = data.length
  /-- An error is a refusal, and has the same count. -/
  error : ∀ e, r.error = some e → e.count = r.count ∧ ∃ f, e.cause = .refused f
  /-- There were at most as many calls as bytes. -/
  few : calls.length ≤ data.length
  /-- Each call was for the rest. -/
  asked : ∀ c ∈ calls, c.AsksForRest held data start
  /-- A failure of the sink stopped the writing, and nothing else does. -/
  failed_iff : r.isOk = false ↔ ∃ c ∈ calls, c.Fails k

/-- No call is for nothing. -/
theorem Wrote.data_ne_nil {data : Bytes} {start s : σ} {r : EmitResult} {calls : List (Call σ)}
    (h : Wrote k held data start r s calls) {c : Call σ} (hc : c ∈ calls) : c.data ≠ [] := by
  obtain ⟨n, hn, -, hdata⟩ := h.asked c hc
  rw [hdata]
  exact mt List.drop_eq_nil_iff.1 (Nat.not_le.2 hn)

namespace Writing

variable {data : Bytes} {start s : σ} {n : Nat} {calls : List (Call σ)}

theorem refl (k : Sink σ) (held : σ → Bytes) (data : Bytes) (start : σ) :
    Writing k held data start 0 start [] where
  le := Nat.zero_le _
  taken := by simp
  few := Nat.le_refl _
  asked := by simp
  went := by simp

/-- The next call is for the rest, too. -/
theorem asked_concat (h : Writing k held data start n s calls) (hn : n < data.length) :
    ∀ c ∈ calls ++ [⟨s, data.drop n⟩], c.AsksForRest held data start := by
  intro c hc
  rcases List.mem_append.1 hc with hc | hc
  · exact h.asked c hc
  · rw [List.mem_singleton.1 hc]
    exact ⟨n, hn, h.taken, rfl⟩

/-- With the next call there are still no more calls than bytes. -/
theorem few_concat (h : Writing k held data start n s calls) (hn : n < data.length) (c : Call σ) :
    (calls ++ [c]).length ≤ data.length := by
  have hfew := h.few
  rw [List.length_append, List.length_singleton]
  omega

/-- If the next call does not fail, none did. -/
theorem went_concat (h : Writing k held data start n s calls) {c : Call σ} (hc : ¬ c.Fails k) :
    ∀ c' ∈ calls ++ [c], ¬ c'.Fails k := by
  intro c' hc'
  rcases List.mem_append.1 hc' with hc' | hc'
  · exact h.went c' hc'
  · rw [List.mem_singleton.1 hc']
    exact hc

/-- A call that takes some bytes brings the writing on. -/
theorem took (h : Writing k held data start n s calls) (hk : k.Honest held) (hn : n < data.length)
    {m : Int} (hm : 0 < m) (hanswer : (k.write (data.drop n) s).1 = .took m) :
    Writing k held data start (n + m.toNat) (k.write (data.drop n) s).2
      (calls ++ [⟨s, data.drop n⟩]) := by
  obtain ⟨hle, hheld⟩ := hk.took _ _ _ hanswer
  rw [List.length_drop] at hle
  constructor
  · omega
  · rw [hheld, h.taken, List.append_assoc, List.take_add]
  · have hfew := h.few
    rw [List.length_append, List.length_singleton]
    omega
  · exact h.asked_concat hn
  · refine h.went_concat ?_
    rw [Call.Fails, hanswer, WriteOutcome.isFailure, decide_eq_true_eq]
    omega

/-- When all bytes are taken the writing is over. -/
theorem whole (h : Writing k held data start data.length s calls) :
    Wrote k held data start (.done data.length) s calls where
  nonneg := Int.natCast_nonneg _
  le := Int.le_refl _
  taken := h.taken
  ok_iff := by simp
  error := by simp
  few := h.few
  asked := h.asked
  failed_iff := iff_of_false (by simp) fun ⟨c, hc, hfail⟩ => h.went c hc hfail

/-- A call that takes all that is left is the last one. -/
theorem tookAll (h : Writing k held data start n s calls) (hk : k.Honest held)
    (hn : n < data.length) (hanswer : (k.write (data.drop n) s).1 = .tookAll) :
    Wrote k held data start (.done data.length) (k.write (data.drop n) s).2
      (calls ++ [⟨s, data.drop n⟩]) where
  nonneg := Int.natCast_nonneg _
  le := Int.le_refl _
  taken := by
    have hheld := hk.tookAll _ _ hanswer
    simp [hheld, h.taken]
  ok_iff := by simp
  error := by simp
  few := h.few_concat hn _
  asked := h.asked_concat hn
  failed_iff := by
    refine iff_of_false (by simp) fun ⟨c, hc, hfail⟩ => h.went_concat ?_ c hc hfail
    rw [Call.Fails, hanswer, WriteOutcome.isFailure]
    exact Bool.false_ne_true

/-- A call that fails is the last one. -/
theorem failed (h : Writing k held data start n s calls) (hn : n < data.length)
    (hfail : (k.write (data.drop n) s).1.isFailure = true)
    (hheld : held (k.write (data.drop n) s).2 = held s) (f : Fault) :
    Wrote k held data start (.stopped n (.refused f)) (k.write (data.drop n) s).2
      (calls ++ [⟨s, data.drop n⟩]) where
  nonneg := Int.natCast_nonneg _
  le := Int.ofNat_le.2 h.le
  taken := hheld.trans h.taken
  ok_iff := by
    refine iff_of_false (by simp) fun hall => ?_
    rw [EmitResult.count_stopped] at hall
    omega
  error := by
    intro e he
    cases he
    exact ⟨rfl, f, rfl⟩
  few := h.few_concat hn _
  asked := h.asked_concat hn
  failed_iff := iff_of_true rfl ⟨_, List.mem_append_right _ List.mem_cons_self, hfail⟩

end Writing

/-- The writing that has begun goes on to its end.  The log may have had other calls before. -/
theorem Honest.writeRest_logged (hk : k.Honest held) (data : Bytes) (start : σ)
    (log : List (Call σ)) : ∀ (fuel n : Nat) (s : σ) (calls : List (Call σ)),
      data.length - n ≤ fuel → Writing k held data start n s calls →
      ∃ r s' calls', k.logged.writeRest data.length fuel n (data.drop n) (s, log ++ calls) =
        (.ok r, s', log ++ calls') ∧ Wrote k held data start r s' calls' := by
  intro fuel
  induction fuel with
  | zero =>
    intro n s calls hfuel h
    have hle := h.le
    obtain rfl : n = data.length := by omega
    refine ⟨_, s, calls, ?_, h.whole⟩
    rw [List.drop_length, writeRest_nil]
  | succ fuel ih =>
    intro n s calls hfuel h
    rcases Nat.lt_or_eq_of_le h.le with hn | rfl
    · have hrest : data.drop n ≠ [] := mt List.drop_eq_nil_iff.1 (Nat.not_le.2 hn)
      rw [writeRest_of_ne_nil _ _ _ _ hrest, logged_write, List.append_assoc]
      cases hanswer : (k.write (data.drop n) s).1 with
      | tookAll => exact ⟨_, _, _, rfl, h.tookAll hk hn hanswer⟩
      | gaveUp f =>
        obtain ⟨hf, hheld⟩ := hk.gaveUp _ _ f hanswer
        have hfail : (k.write (data.drop n) s).1.isFailure = true := by
          rw [hanswer]
          rfl
        refine ⟨_, _, _, ?_, h.failed hn hfail hheld f⟩
        simp only [hf, if_true]
      | took m =>
        dsimp only
        by_cases hm : m ≤ 0
        · -- nothing was taken, so the write ends short
          have hnone : held (k.write (data.drop n) s).2 = held s := by
            rw [(hk.took _ _ m hanswer).2, Int.toNat_of_nonpos hm, List.take_zero, List.append_nil]
          have hfail : (k.write (data.drop n) s).1.isFailure = true := by
            rw [hanswer]
            exact decide_eq_true hm
          rw [if_pos hm]
          exact ⟨_, _, _, rfl, h.failed hn hfail hnone (.shortWrite n data.length)⟩
        · have hpos : 0 < m := Int.not_le.1 hm
          have hcount : (n : Int) + m = (n + m.toNat : Nat) := by omega
          rw [if_neg hm, List.drop_drop, hcount]
          exact ih (n + m.toNat) _ _ (by omega) (h.took hk hn hpos hanswer)
    · refine ⟨_, s, calls, ?_, h.whole⟩
      rw [List.drop_length, writeRest_nil]

/-- Every byte string is written to an honest sink by calls for what is left of it. -/
theorem Honest.writeAll_logged (hk : k.Honest held) (data : Bytes) (s : σ) (log : List (Call σ)) :
    ∃ r s' calls, k.writeAll data s = (.ok r, s') ∧
      k.logged.writeAll data (s, log) = (.ok r, s', log ++ calls) ∧
      Wrote k held data s r s' calls := by
  obtain ⟨r, s', calls, hrun, hwrote⟩ :=
    hk.writeRest_logged data s log data.length 0 s [] (Nat.sub_le _ _) (.refl k held data s)
  rw [List.append_nil] at hrun
  have hlogged : k.logged.writeAll data (s, log) = (.ok r, s', log ++ calls) := hrun
  obtain ⟨houtcome, hstate⟩ :=
    k.logged_alike.writeRest data.length data.length 0 data (s, log) s rfl
  refine ⟨r, s', calls, Prod.ext ?_ ?_, hlogged, hwrote⟩
  · exact houtcome.symm.trans (congrArg Prod.fst hlogged)
  · exact hstate.symm.trans (congrArg (·.2.1) hlogged)

/-- **A byte string is written by calls for what is left of it.**  There are at most as many calls
as bytes, and allowing more changes nothing.  Each call gets just the bytes that the sink has not
taken yet.  In the end the sink has taken the bytes that the result counts, which are the first
ones; there is no error just if these are all, and an error is a refusal with the same count. -/
theorem Honest.writeAll_exact (hk : k.Honest held) (data : Bytes) (s : σ) :
    ∃ r s' calls, k.writeAll data s = (.ok r, s') ∧
      (∀ fuel, data.length ≤ fuel →
        k.logged.writeRest data.length fuel 0 data (s, []) = (.ok r, s', calls)) ∧
      Wrote k held data s r s' calls := by
  obtain ⟨r, s', calls, hrun, hlogged, hwrote⟩ := hk.writeAll_logged data s []
  refine ⟨r, s', calls, hrun, fun fuel hfuel => ?_, hwrote⟩
  rw [k.logged.writeRest_congr data.length fuel data.length 0 data (s, []) hfuel (Nat.le_refl _)]
  exact hlogged

/-- A sink that takes at most two bytes at a write, and none at every third one. -/
def fitful : Sink Recording :=
  ⟨fun data r =>
    let asked : Recording := { r with writes := r.writes ++ [data.length] }
    if r.writes.length % 3 = 2 then (.took (-1), asked) else SinkStyle.takeUpTo 2 data asked⟩

theorem fitful_honest : fitful.Honest Recording.held := by
  constructor
  · intro data r n hn
    simp only [fitful, SinkStyle.takeUpTo, Recording.take] at hn ⊢
    split at hn
    · next hthird =>
      cases hn
      rw [if_pos hthird]
      exact ⟨by omega, (List.append_nil _).symm⟩
    · next hthird =>
      cases hn
      have hfirst := List.prefix_iff_eq_take.1 (List.take_prefix 2 data)
      rw [if_neg hthird, Int.toNat_natCast, ← hfirst]
      refine ⟨Int.ofNat_le.2 ?_, rfl⟩
      rw [List.length_take]
      exact Nat.min_le_right 2 data.length
  · intro data r hall
    simp only [fitful, SinkStyle.takeUpTo] at hall
    split at hall <;> cases hall
  · intro data r f hgave
    simp only [fitful, SinkStyle.takeUpTo] at hgave
    split at hgave <;> cases hgave

/-- Two calls take two bytes each, and the third one takes none. -/
theorem Honest.writeAll_exact_fitful : ∃ r s' calls,
    fitful.writeAll [1, 2, 3, 4, 5, 6] .empty = (.ok r, s') ∧ r.count = 4 ∧ r.isOk = false ∧
      s'.held = [1, 2, 3, 4] ∧
      calls.map Call.data = [[1, 2, 3, 4, 5, 6], [3, 4, 5, 6], [5, 6]] ∧
      Wrote fitful Recording.held [1, 2, 3, 4, 5, 6] .empty r s' calls := by
  obtain ⟨r, s', calls, hrun, hcalls, hwrote⟩ :=
    fitful_honest.writeAll_exact [1, 2, 3, 4, 5, 6] .empty
  have hrun' : fitful.writeAll [1, 2, 3, 4, 5, 6] .empty =
      (.ok (.stopped 4 (.refused (.shortWrite 4 6))), ⟨[1, 2, 3, 4], [6, 4, 2]⟩) := by rfl
  have hlog : calls.map Call.data = [[1, 2, 3, 4, 5, 6], [3, 4, 5, 6], [5, 6]] :=
    (congrArg (·.2.2.map Call.data) (hcalls 6 (Nat.le_refl 6))).symm
  cases hrun.symm.trans hrun'
  exact ⟨_, _, calls, hrun, rfl, rfl, rfl, hlog, hwrote⟩

end Sink
end Stencil
