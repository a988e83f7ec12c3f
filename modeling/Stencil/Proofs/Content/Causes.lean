import Stencil.Content.Emit

/-!
# What stops the emission of a template

The emission of a bound template ends with an error for one of three causes: the sink refuses data,
a slot with a name has no content, or the emission of content in some slot ends with that cause.  So
if all slots with names have content, whatever is without content is so in that content.

## Main definitions

* `EmitResult.CauseIn`, `Emission.CausesIn` — errors have causes of a kind.
* `Tree.StopsBy` — some emission of content ends with a cause.

## Main results

* `emitSlots_causesIn` — the causes for which the emission of a template ends.
* `Tree.stopsBy_bound` — the three causes.
* `Tree.exists_stopsBy_unbound` — what is without content if all slots with names have some.
-/

namespace Stencil

variable {σ ω : Type} {P : EmitCause → Prop}

/-! ### Results -/

namespace EmitResult

/-- The result has no error, or one with a cause in `P`. -/
def CauseIn (P : EmitCause → Prop) (r : EmitResult) : Prop := ∀ e, r.error = some e → P e.cause

theorem causeIn_done (n : Int) : (done n).CauseIn P := by
  intro e he
  cases he

theorem causeIn_stopped (n : Int) {cause : EmitCause} (h : P cause) :
    (stopped n cause).CauseIn P := by
  intro e he
  cases he
  exact h

/-- An error keeps its cause when what came before is counted. -/
theorem CauseIn.andThen {next : EmitResult} (h : next.CauseIn P) (r : EmitResult) :
    (r.andThen next).CauseIn P := by
  intro e he
  unfold EmitResult.andThen at he
  split at he
  · cases he
  · next e' he' =>
    cases he
    exact h e' he'

end EmitResult

/-! ### Emissions -/

/-- A sink stops the writing of bytes by refusing some. -/
theorem Sink.causeIn_writeRest (k : Sink σ) (hrefused : ∀ f, P (.refused f)) (size : Nat) :
    ∀ (fuel : Nat) (count : Int) (rest : Bytes) (s : σ) (r : EmitResult),
      (k.writeRest size fuel count rest s).1 = .ok r → r.CauseIn P := by
  intro fuel
  induction fuel with
  | zero =>
    rintro count rest s r ⟨⟩
    exact EmitResult.causeIn_done count
  | succ fuel ih =>
    intro count rest s r hr
    cases rest with
    | nil =>
      cases hr
      exact EmitResult.causeIn_done count
    | cons b rest =>
      rw [Sink.writeRest] at hr
      split at hr
      · cases hr
        exact EmitResult.causeIn_done size
      · split at hr
        · cases hr
          exact EmitResult.causeIn_stopped count (hrefused _)
        · cases hr
      · split at hr
        · cases hr
          exact EmitResult.causeIn_stopped count (hrefused _)
        · exact ih _ _ _ r hr

namespace Emission

/-- The emission has no result, or one that has no error but for a cause in `P`. -/
def CausesIn (P : EmitCause → Prop) (e : Emission σ EmitResult) : Prop :=
  ∀ r, e.outcome = .ok r → r.CauseIn P

theorem causesIn_ok {r : EmitResult} (h : r.CauseIn P) (s : σ) (runs : Runs) :
    CausesIn P ⟨.ok r, s, runs⟩ := by
  intro r' hr'
  cases hr'
  exact h

theorem causesIn_bytes (k : Sink σ) (hrefused : ∀ f, P (.refused f)) (data : Bytes) (s : σ)
    (runs : Runs) : (bytes k data s runs).CausesIn P :=
  fun r hr => k.causeIn_writeRest hrefused _ _ _ _ _ r hr

theorem causesIn_emitUnbound {template : String} {name : Option String}
    (hunbound : ∀ n, name = some n → P (.unbound n template)) (s : σ) (runs : Runs) :
    (emitUnbound template name s runs).CausesIn P := by
  cases name with
  | none => exact causesIn_ok (EmitResult.causeIn_done 0) s runs
  | some n => exact causesIn_ok (EmitResult.causeIn_stopped 0 (hunbound n rfl)) s runs

variable {e : Emission σ EmitResult} {next : σ → Runs → Emission σ EmitResult}

/-- An emission is followed by what depends on its result. -/
theorem CausesIn.bind {α : Type} {e : Emission σ α} {next : α → σ → Runs → Emission σ EmitResult}
    (hnext : ∀ a s runs, e.outcome = .ok a → (next a s runs).CausesIn P) :
    (e.bind next).CausesIn P := by
  intro r hr
  unfold Emission.bind at hr
  split at hr
  · next a ha => exact hnext a _ _ ha r hr
  · cases hr

theorem CausesIn.settled (he : e.CausesIn P) : e.settled.CausesIn P :=
  .bind fun r s runs hr => causesIn_ok ((he r hr).andThen _) s runs

theorem CausesIn.followedBy (he : e.CausesIn P) (hnext : ∀ s runs, (next s runs).CausesIn P) :
    (e.followedBy next).CausesIn P := by
  refine .bind fun r s runs hr => ?_
  split
  · exact .bind fun r' s' runs' hr' => causesIn_ok ((hnext s runs r' hr').andThen r) s' runs'
  · exact causesIn_ok (he r hr) s runs

theorem CausesIn.thenFragment {k : Sink σ} (he : e.CausesIn P) (hrefused : ∀ f, P (.refused f))
    (fragment : Option Bytes) (hnext : ∀ s runs, (next s runs).CausesIn P) :
    (e.thenFragment k fragment next).CausesIn P := by
  cases fragment with
  | none => exact he
  | some f =>
    have hfragment := he.followedBy fun s runs => causesIn_bytes k hrefused f s runs
    exact hfragment.followedBy hnext

end Emission

/-! ### Templates -/

/-- **The emission of a template** is stopped by the sink, by a slot with a name that has no
content, or by the content of a slot. -/
theorem emitSlots_causesIn {k : Sink σ} (t : Template ω) (hrefused : ∀ f, P (.refused f)) :
    ∀ (bindings : List (Option (Tree ω))),
      (∀ c, some c ∈ bindings → ∀ s runs, (Tree.emit c k s runs).CausesIn P) →
      ∀ slot, (∀ i n, bindings[i]? = some none → t.nameAt (slot + i) = some n →
        P (.unbound n t.name)) →
      ∀ (s : σ) (runs : Runs), (emitSlots t slot bindings k s runs).CausesIn P := by
  intro bindings
  induction bindings with
  | nil =>
    intro _ slot _ s runs r hr
    cases hr
  | cons binding rest ih =>
    intro hbound slot hunbound s runs
    have hnext := ih (fun c hc => hbound c (List.mem_cons_of_mem _ hc)) (slot + 1) fun i n hi hn =>
      hunbound (i + 1) n hi (by rwa [Nat.add_assoc, Nat.add_comm 1] at hn)
    cases binding with
    | none =>
      refine Emission.CausesIn.thenFragment ?_ hrefused _ hnext
      exact Emission.causesIn_emitUnbound (fun n hn => hunbound 0 n rfl hn) s runs
    | some c =>
      refine Emission.CausesIn.thenFragment ?_ hrefused _ hnext
      exact Emission.CausesIn.settled fun r hr => hbound c List.mem_cons_self s runs r hr

namespace Tree

/-- Some emission of the content to the sink ends with an error for that cause. -/
def StopsBy (c : Tree ω) (k : Sink σ) (cause : EmitCause) : Prop :=
  ∃ s runs r e, (Tree.emit c k s runs).outcome = .ok r ∧ r.error = some e ∧ e.cause = cause

variable {k : Sink σ} {t : Template ω} {bindings : List (Option (Tree ω))}

/-- **What stops a bound template**: the sink refuses data, a slot with a name has no content, or
the content of some slot is stopped by the same cause. -/
theorem stopsBy_bound {cause : EmitCause} (h : StopsBy (.bound t bindings) k cause) :
    (∃ f, cause = .refused f) ∨
    (∃ s n, bindings[s]? = some none ∧ t.nameAt s = some n ∧ cause = .unbound n t.name) ∨
    ∃ c, some c ∈ bindings ∧ StopsBy c k cause := by
  obtain ⟨s, runs, r, e, hr, he, rfl⟩ := h
  exact emitSlots_causesIn
    (P := fun cause => (∃ f, cause = .refused f) ∨
      (∃ s n, bindings[s]? = some none ∧ t.nameAt s = some n ∧ cause = .unbound n t.name) ∨
      ∃ c, some c ∈ bindings ∧ StopsBy c k cause)
    t (fun f => .inl ⟨f, rfl⟩) bindings
    (fun c hc s runs r hr e he => .inr (.inr ⟨c, hc, s, runs, r, e, hr, he, rfl⟩)) 0
    (fun i n hi hn => .inr (.inl ⟨i, n, hi, Nat.zero_add i ▸ hn, rfl⟩)) s runs r hr e he

/-- Where all slots with names have content, a placeholder without content is in that content. -/
theorem exists_stopsBy_unbound
    (hall : ∀ s, (t.nameAt s).isSome → ∃ c, bindings[s]? = some (some c)) {name template : String}
    (h : StopsBy (.bound t bindings) k (.unbound name template)) :
    ∃ c, some c ∈ bindings ∧ StopsBy c k (.unbound name template) := by
  rcases stopsBy_bound h with ⟨f, hf⟩ | ⟨s, n, hs, hn, -⟩ | hcontent
  · cases hf
  · obtain ⟨c, hc⟩ := hall s (by rw [hn]; rfl)
    cases hs.symm.trans hc
  · exact hcontent

end Tree
end Stencil
