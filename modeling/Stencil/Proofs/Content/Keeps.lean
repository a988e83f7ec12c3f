import Stencil.Content.Emit
import Stencil.Proofs.Content.Induction

/-!
# What emissions keep

An emission changes the state of its sink by writes only.  So a property of the state that every
write keeps is kept by every emission, whatever the content is: also by scripts that ignore the
answers of the sink, and through sinks that escape.

## Main definitions

* `Sink.Keeps` — writes keep a property of the state.

## Main results

* `Tree.emit_keeps` — what writes keep, emissions keep.
-/

namespace Stencil

variable {σ ω α β : Type}

/-- Writes keep a property of the state. -/
def Sink.Keeps (k : Sink σ) (I : σ → Prop) : Prop := ∀ data s, I s → I (k.write data s).2

theorem Sink.Keeps.writeRest {k : Sink σ} {I : σ → Prop} (h : k.Keeps I) (size fuel : Nat) :
    ∀ (count : Int) (rest : Bytes) (s : σ), I s → I (k.writeRest size fuel count rest s).2 := by
  -- one write for each unit of fuel, and whatever it answers the state is that after the write
  induction fuel with
  | zero => exact fun _ _ _ hs => hs
  | succ fuel ih =>
    intro count rest s hs
    cases rest with
    | nil => exact hs
    | cons b rest =>
      have hw := h (b :: rest) s hs
      unfold Sink.writeRest
      split
      · next heq => rw [heq] at hw; exact hw
      · next heq => rw [heq] at hw; exact hw
      · next heq =>
        rw [heq] at hw
        split
        · exact hw
        · exact ih _ _ _ hw

theorem Sink.Keeps.writeAll {k : Sink σ} {I : σ → Prop} (h : k.Keeps I) (data : Bytes) {s : σ}
    (hs : I s) : I (k.writeAll data s).2 := h.writeRest _ _ _ _ _ hs

theorem Sink.Keeps.escaping {k : Sink σ} {I : σ → Prop} (h : k.Keeps I) (escape : Escape)
    (codec : Codec) : (k.escaping escape codec).Keeps (fun st => I st.target) := by
  intro data st hs
  simp only [Sink.escaping, Escaping.write]
  split
  · exact hs
  · exact hs
  · unfold Escaping.forward
    split
    · exact hs
    · split
      · exact hs
      · next bytes _ =>
        have hw := h.writeAll bytes hs
        split <;> next heq => rw [heq] at hw; exact hw

namespace Emission

variable {I : σ → Prop}

theorem keeps_bind {e : Emission σ α} {next : α → σ → Runs → Emission σ β} (he : I e.sink)
    (hnext : ∀ a s runs, I s → I (next a s runs).sink) : I (e.bind next).sink := by
  unfold bind
  split
  · exact hnext _ _ _ he
  · exact he

theorem keeps_followedBy {e : Emission σ EmitResult} {next : σ → Runs → Emission σ EmitResult}
    (he : I e.sink) (hnext : ∀ s runs, I s → I (next s runs).sink) :
    I (e.followedBy next).sink := by
  refine keeps_bind he (fun r s runs hs => ?_)
  split
  · exact keeps_bind (hnext s runs hs) (fun _ _ _ hs => hs)
  · exact hs

theorem keeps_bytes {k : Sink σ} (h : k.Keeps I) (data : Bytes) {s : σ} (hs : I s) (runs : Runs) :
    I (bytes k data s runs).sink := h.writeAll data hs

theorem keeps_someBytes {k : Sink σ} (h : k.Keeps I) (data : Bytes) {s : σ} (hs : I s)
    (runs : Runs) : I (someBytes k data s runs).sink := by
  unfold someBytes
  split
  · exact hs
  · exact keeps_bytes h data hs runs

theorem keeps_thenFragment {k : Sink σ} (h : k.Keeps I) {e : Emission σ EmitResult} (he : I e.sink)
    {fragment : Option Bytes} {next : σ → Runs → Emission σ EmitResult}
    (hnext : ∀ s runs, I s → I (next s runs).sink) : I (e.thenFragment k fragment next).sink := by
  cases fragment with
  | none => exact he
  | some f =>
    exact keeps_followedBy (keeps_followedBy he (fun _ runs hs => keeps_bytes h f hs runs)) hnext

end Emission

theorem keeps_emitUnbound {I : σ → Prop} (template : String) (name : Option String) {s : σ}
    (hs : I s) (runs : Runs) : I (emitUnbound template name s runs).sink := by
  cases name <;> exact hs

variable [DigitLimit]

theorem emitSlots_keeps_of {k : Sink σ} {I : σ → Prop} (h : k.Keeps I) (t : Template ω) :
    ∀ (bindings : List (Option (Content ω Empty))),
      (∀ c, some c ∈ bindings → ∀ s runs, I s → I (Tree.emit c k s runs).sink) →
      ∀ (slot : Nat) (s : σ) (runs : Runs), I s → I (emitSlots t slot bindings k s runs).sink := by
  intro bindings
  induction bindings with
  | nil => exact fun _ slot s runs hs => hs
  | cons binding rest ih =>
    intro hbound slot s runs hs
    have hnext := ih (fun c hc => hbound c (List.mem_cons_of_mem _ hc)) (slot + 1)
    cases binding with
    | none => exact Emission.keeps_thenFragment h (keeps_emitUnbound _ _ hs runs) hnext
    | some c =>
      refine Emission.keeps_thenFragment h ?_ hnext
      exact Emission.keeps_bind (hbound c List.mem_cons_self s runs hs) (fun _ _ _ hs => hs)

/-- The run of a script keeps what writes keep. -/
def Script.Keeps (script : Script ω Empty) : Prop :=
  ∀ (σ : Type) (k : Sink σ) (I : σ → Prop), k.Keeps I →
    ∀ (s : σ) (runs : Runs), I s → I (Script.run script k s runs).sink

/-- **What writes keep, emissions keep**, whatever the content does. -/
theorem Tree.emit_keeps (c : Tree ω) : ∀ {σ : Type} {k : Sink σ} {I : σ → Prop}, k.Keeps I →
    ∀ (s : σ) (runs : Runs), I s → I (Tree.emit c k s runs).sink := by
  induction c using Content.induct Script.Keeps with
  | empty => exact fun _ _ _ hs => hs
  | data bytes => exact fun h s runs hs => Emission.keeps_bytes h bytes hs runs
  | print value encoding =>
    intro σ k I h s runs hs
    simp only [Tree.emit, Emission.bytesOr]
    split
    · exact Emission.keeps_bytes h _ hs runs
    · exact hs
  | format format values encoding =>
    intro σ k I h s runs hs
    simp only [Tree.emit]
    split
    · exact Emission.keeps_bytes h _ hs runs
    · exact hs
    · exact hs
  | generator label script ih =>
    intro σ k I h s runs hs
    -- what the script returns is checked after its last write
    have hrun := ih σ k I h s (runs ++ label.toList) hs
    simp only [Tree.emit, Emission.ofScript]
    split <;> exact hrun
  | brackets before inner after ih =>
    intro σ k I h s runs hs
    refine Emission.keeps_followedBy (Emission.keeps_followedBy ?_ ?_) ?_
    · exact Emission.keeps_someBytes h before hs runs
    · exact fun s runs => ih h s runs
    · exact fun s runs hs => Emission.keeps_someBytes h after hs runs
  | escaper escape encoding inner ih =>
    intro σ k I h s runs hs
    simp only [Tree.emit]
    split
    · next codec _ =>
      -- the property is one of the target, which the sink in front changes by writes only
      have hinner := ih (h.escaping escape codec) (.start codec s) runs hs
      unfold Emission.ofEscaping
      split <;> exact hinner
    · exact hs
  | bound template bindings ih =>
    intro σ k I h s runs hs
    exact emitSlots_keeps_of h template bindings (fun c hc s runs => ih c hc h s runs) 0 s runs hs
  | shared ref => exact ref.elim
  | done returned =>
    intro σ k I _ s runs hs
    exact hs
  | giveUp f =>
    intro σ k I _ s runs hs
    exact hs
  | write data next ih =>
    intro σ k I h s runs hs
    exact ih _ σ k I h _ runs (h data s hs)
  | emit content next ihContent ih =>
    intro σ k I h s runs hs
    exact Emission.keeps_bind (ihContent h s runs hs) (fun r => ih r σ k I h)

end Stencil
