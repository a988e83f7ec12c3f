import Stencil.Proofs.Content.Harmless

/-!
# What went through a sink that escapes

Content behind a sink that escapes may do anything: count wrongly, go on after a refusal, or give up
half-way.  Its result tells neither how many bytes reached the target nor whether all did.  The sink
in front of the target keeps both itself.  Its count is that of the bytes the target took; and once
a call of the target has failed, there is an error at the end, even if later calls went well and the
content told of nothing.

What the target was asked for is seen in a log of its calls, which does not change the emission.

## Main definitions

* `Escaping.Alert` — the sink in front knows of the failures of its target.

## Main results

* `Escaping.keeps_alert` — every write keeps it so.
* `Tree.emit_escaper_exact` — the result counts what the target took, and tells of its failures.
-/

namespace Stencil

variable {σ ω : Type} {k : Sink σ} {held : σ → Bytes}

namespace Escaping

/-- If a call of the target failed, the sink in front of it keeps an error. -/
def Alert (k : Sink σ) (st : Escaping (σ × List (Sink.Call σ))) : Prop :=
  (∃ c ∈ st.target.2, c.Fails k) → st.failure ≠ none

theorem alert_start (k : Sink σ) (codec : Codec) (s : σ) : (start codec (s, [])).Alert k := by
  rintro ⟨c, hc, -⟩
  cases hc

/-- A text that is written on leaves an error if the target fails on the way, and one that was there
before stays. -/
theorem Alert.forward (hk : k.Honest held) {st : Escaping (σ × List (Sink.Call σ))}
    (h : st.Alert k) (escape : Escape) (codec : Codec) (size : Nat) (text : Points) :
    (forward k.logged escape codec size text st).2.Alert k := by
  unfold Escaping.forward
  split
  · exact h
  · split
    · exact h
    · next bytes _ =>
      obtain ⟨r, s', calls, -, hrun, hwrote⟩ := hk.writeAll_logged bytes st.target.1 st.target.2
      rw [hrun]
      obtain ⟨count, _ | e⟩ := r
      · -- nothing stopped, so no call failed now; the one that did was before
        rintro ⟨c, hc, hfail⟩
        rcases List.mem_append.1 hc with hc | hc
        · exact h ⟨c, hc, hfail⟩
        · cases hwrote.failed_iff.2 ⟨c, hc, hfail⟩
      · exact fun _ => Option.some_ne_none e

/-- **Every write keeps the sink alert**, whatever the bytes are. -/
theorem keeps_alert (hk : k.Honest held) (escape : Escape) (codec : Codec) :
    (k.logged.escaping escape codec).Keeps (Alert k) := by
  intro data st h
  simp only [Sink.escaping, Escaping.write]
  split
  · exact h
  · exact h
  · next p text reading _ =>
    have hreading : ({ st with reading } : Escaping (σ × List (Sink.Call σ))).Alert k := h
    exact hreading.forward hk escape codec data.length (p :: text)

end Escaping

/-- Escaped content is stopped if a call of the sink failed. -/
theorem Tree.isOk_emit_escaper [DigitLimit] (hk : k.Honest held) (escape : Escape)
    (encoding : Encoding) (inner : Tree ω) (s : σ) (runs : Runs) {r : EmitResult}
    (hr : (Tree.emit (.escaper escape encoding inner) k.logged (s, []) runs).outcome = .ok r)
    (hfail : ∃ c ∈ (Tree.emit (.escaper escape encoding inner) k.logged (s, []) runs).sink.2,
      c.Fails k) : r.isOk = false := by
  cases hcodec : encoding.codec with
  | error f =>
    simp only [Tree.emit, hcodec] at hr
    cases hr
  | ok codec =>
    have halert := Tree.emit_keeps inner (Escaping.keeps_alert hk escape codec)
      (.start codec (s, [])) runs (Escaping.alert_start k codec s)
    simp only [Tree.emit, hcodec, Emission.ofEscaping] at hr hfail
    cases hsaid : (Tree.emit inner (k.logged.escaping escape codec) (.start codec (s, []))
        runs).outcome with
    | error f =>
      rw [hsaid] at hr
      cases hr
    | ok said =>
      rw [hsaid] at hr hfail
      exact Escaping.isOk_conclude_of_failure (halert hfail) codec hr

/-- **What went through is counted, and what failed is told.**  Let any content be emitted through
any escape, in any encoding, to an honest sink.  If the emission has a result, this and its error
count the bytes that the sink took.  With a log of the calls the emission is the same, and if any
call in the log failed, the result is an error. -/
theorem Tree.emit_escaper_exact [DigitLimit] (hk : k.Honest held) (escape : Escape)
    (encoding : Encoding) (inner : Tree ω) (s : σ) (runs : Runs) {r : EmitResult}
    (hr : (Tree.emit (.escaper escape encoding inner) k s runs).outcome = .ok r) :
    let e := Tree.emit (.escaper escape encoding inner) k s runs
    let e' := Tree.emit (.escaper escape encoding inner) k.logged (s, []) runs
    (∃ taken, held e.sink = held s ++ taken ∧ r.count = taken.length ∧
        ∀ error, r.error = some error → error.count = taken.length) ∧
      e'.outcome = .ok r ∧ e'.sink.1 = e.sink ∧
      ((∃ c ∈ e'.sink.2, c.Fails k) → r.isOk = false) := by
  intro e e'
  have halike := Tree.emit_alike (.escaper escape encoding inner) k.logged_alike (s := (s, []))
    rfl runs runs
  have hlogged : e'.outcome = .ok r := halike.outcome.trans hr
  refine ⟨?_, hlogged, halike.sink, ?_⟩
  · exact Tree.emit_escaper_accounts hk escape encoding inner s runs r hr
  · exact Tree.isOk_emit_escaper hk escape encoding inner s runs hlogged

/-- The content claims to have written a single byte, and tells of no error.  The sink took twelve,
and failed at two of its eight calls. -/
theorem Tree.emit_escaper_exact_heedless :
    let e := Tree.emit (.escaper Escape.html .standard heedless) Sink.fitful .empty []
    e.sink.held = Utf8.encode "&lt;é&a&lt;".toList ∧
      ∃ r, e.outcome = .ok r ∧ r.count = 12 ∧ r.isOk = false := by
  intro e
  have hheld : e.sink.held = Utf8.encode "&lt;é&a&lt;".toList := by decide +kernel
  have hdone : e.outcome.isOk = true := by decide +kernel
  have hfail : (Tree.emit (.escaper Escape.html .standard heedless) Sink.fitful.logged (.empty, [])
      []).sink.2.any (fun c => (Sink.fitful.write c.data c.before).1.isFailure) = true := by
    decide +kernel
  cases hr : e.outcome with
  | error f =>
    rw [hr] at hdone
    cases hdone
  | ok r =>
    obtain ⟨⟨taken, htaken, hcount, -⟩, -, -, hstop⟩ :=
      Tree.emit_escaper_exact Sink.fitful_honest Escape.html .standard heedless .empty [] hr
    obtain rfl : taken = Utf8.encode "&lt;é&a&lt;".toList :=
      (htaken.trans (List.nil_append taken)).symm.trans hheld
    exact ⟨hheld, r, rfl, hcount, hstop (List.any_eq_true.1 hfail)⟩

end Stencil
