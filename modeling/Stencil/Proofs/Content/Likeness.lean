import Mathlib.Data.List.Forall2
import Stencil.Content.Emit
import Stencil.Proofs.Content.References

/-!
# Content that cannot tell errors apart

Two errors may differ in something that does not matter, such as the name of a placeholder.  Content
passes on the errors of what it emits, so that it ends with one of them or with the other; but as
long as no script looks into them, that is all the difference it makes.  The sink gets the same
bytes, and the same scripts run.

Here `R` relates the causes of errors that should not be told apart.

## Main definitions

* `EndLike` — two computations that end in the same way.
* `EmitError.Like`, `EmitResult.Like`, `Emission.Like` — errors, results and emissions that only
  differ in causes that `R` relates.
* `Content.IsBlind`, `Script.Follows` — content and scripts that do not tell such causes apart.
* `Content.EmitsLike` — two trees of content, the emissions of which are alike.

## Main results

* `Script.follows_ofActs` — scripts that only count are blind.
* `emitSlots_like` — templates with the same fragments are emitted alike if their slots are.
* `Content.IsBlind.expand_emitsLike` — so is blind content if what it refers to is.
-/

namespace Stencil

variable {σ ω ρ ε ε' α α' β β' : Type}

/-! ### Results -/

/-- Two computations end in the same way: with related results, or with related errors. -/
inductive EndLike (E : ε → ε' → Prop) (P : α → α' → Prop) : Except ε α → Except ε' α' → Prop where
  /-- Both have a result. -/
  | ok {a : α} {a' : α'} (h : P a a') : EndLike E P (.ok a) (.ok a')
  /-- Both have an error. -/
  | error {e : ε} {e' : ε'} (h : E e e') : EndLike E P (.error e) (.error e')

theorem EndLike.imp {E : ε → ε' → Prop} {P Q : α → α' → Prop} {x : Except ε α} {x' : Except ε' α'}
    (h : EndLike E P x x') (hPQ : ∀ a a', P a a' → Q a a') : EndLike E Q x x' := by
  cases h with
  | ok ha => exact .ok (hPQ _ _ ha)
  | error he => exact .error he

theorem EndLike.exists_ok {E : ε → ε' → Prop} {P : α → α' → Prop} {a : α} {x' : Except ε' α'}
    (h : EndLike E P (.ok a) x') : ∃ a', x' = .ok a' ∧ P a a' := by
  cases h with
  | ok ha => exact ⟨_, rfl, ha⟩

section Results

variable (R : EmitCause → EmitCause → Prop)

/-- The errors have related causes, after the same number of bytes. -/
structure EmitError.Like (e e' : EmitError) : Prop where
  /-- The causes are related. -/
  cause : R e.cause e'.cause
  /-- The counts are equal. -/
  count : e.count = e'.count

/-- The results have the same count, and both an error or none. -/
structure EmitResult.Like (r r' : EmitResult) : Prop where
  /-- The counts are equal. -/
  count : r.count = r'.count
  /-- The errors are alike. -/
  error : Option.Rel (EmitError.Like R) r.error r'.error

/-- The scripts returned the same value, or results that are alike. -/
inductive Returned.Like : Returned → Returned → Prop where
  /-- The same value. -/
  | value (v : Value) : Like (.value v) (.value v)
  /-- Results that are alike. -/
  | result {r r' : EmitResult} (h : r.Like R r') : Like (.result r) (.result r')

end Results

variable {R : EmitCause → EmitCause → Prop}

namespace EmitResult

variable {r r' next next' : EmitResult}

theorem like_done (n : Int) : (done n).Like R (done n) := ⟨rfl, .none⟩

theorem like_stopped (n : Int) {c c' : EmitCause} (h : R c c') :
    (stopped n c).Like R (stopped n c') := ⟨rfl, .some ⟨h, rfl⟩⟩

theorem like_failed (n : Int) {e e' : EmitError} (h : e.Like R e') :
    (failed n e).Like R (failed n e') := ⟨rfl, .some ⟨h.cause, rfl⟩⟩

theorem like_refl [Std.Refl R] (r : EmitResult) : r.Like R r := by
  obtain ⟨count, _ | e⟩ := r
  · exact ⟨rfl, .none⟩
  · exact ⟨rfl, .some ⟨Std.Refl.refl _, rfl⟩⟩

theorem Like.isOk_eq (h : r.Like R r') : r.isOk = r'.isOk := by
  obtain ⟨count, error⟩ := r
  obtain ⟨count', error'⟩ := r'
  obtain ⟨-, herror⟩ := h
  cases herror with
  | some _ => rfl
  | none => rfl

theorem Like.andThen (h : r.Like R r') (hnext : next.Like R next') :
    (r.andThen next).Like R (r'.andThen next') := by
  obtain ⟨count, error⟩ := next
  obtain ⟨count', error'⟩ := next'
  obtain ⟨rfl, herror⟩ := hnext
  unfold EmitResult.andThen
  rw [h.count]
  cases herror with
  | some he => exact like_failed _ he
  | none => exact like_done _

end EmitResult

/-! ### Emissions -/

namespace Emission

variable {P : α → α' → Prop} {Q : β → β' → Prop}

/-- The emissions end in the same way, with the same bytes at the sink and after the same runs. -/
structure Like (P : α → α' → Prop) (e : Emission σ α) (e' : Emission σ α') : Prop where
  /-- They end in the same way, and any fault is the same. -/
  outcome : EndLike Eq P e.outcome e'.outcome
  /-- The sink is in the same state. -/
  sink : e.sink = e'.sink
  /-- The same scripts ran. -/
  runs : e.runs = e'.runs

theorem like_ok {a : α} {a' : α'} (h : P a a') (s : σ) (runs : Runs) :
    Like P ⟨.ok a, s, runs⟩ ⟨.ok a', s, runs⟩ := ⟨.ok h, rfl, rfl⟩

theorem like_fault (f : Fault) (s : σ) (runs : Runs) :
    Like P ⟨.error f, s, runs⟩ ⟨.error f, s, runs⟩ := ⟨.error rfl, rfl, rfl⟩

theorem like_refl {P : α → α → Prop} (hP : ∀ a, P a a) (e : Emission σ α) : e.Like P e := by
  obtain ⟨outcome, s, runs⟩ := e
  cases outcome with
  | ok a => exact like_ok (hP a) s runs
  | error f => exact like_fault f s runs

theorem Like.bind {e : Emission σ α} {e' : Emission σ α'} (h : e.Like P e')
    {next : α → σ → Runs → Emission σ β} {next' : α' → σ → Runs → Emission σ β'}
    (hnext : ∀ a a' s runs, P a a' → (next a s runs).Like Q (next' a' s runs)) :
    (e.bind next).Like Q (e'.bind next') := by
  obtain ⟨outcome, s, runs⟩ := e
  obtain ⟨outcome', s', runs'⟩ := e'
  obtain ⟨houtcome, rfl, rfl⟩ := h
  cases houtcome with
  | ok ha => exact hnext _ _ s runs ha
  | error hf => exact ⟨.error hf, rfl, rfl⟩

variable {e e' : Emission σ EmitResult} {next next' : σ → Runs → Emission σ EmitResult}

theorem Like.settled (h : e.Like (EmitResult.Like R) e') :
    e.settled.Like (EmitResult.Like R) e'.settled :=
  h.bind fun _ _ s runs hr => like_ok ((EmitResult.like_done 0).andThen hr) s runs

/-- What comes after results that are alike is compared in turn, if it comes at all. -/
theorem Like.followedBy (h : e.Like (EmitResult.Like R) e')
    (hnext : ∀ s runs, (next s runs).Like (EmitResult.Like R) (next' s runs)) :
    (e.followedBy next).Like (EmitResult.Like R) (e'.followedBy next') := by
  refine h.bind fun r r' s runs hr => ?_
  rw [← hr.isOk_eq]
  split
  · exact (hnext s runs).bind fun a a' s runs ha => like_ok (hr.andThen ha) s runs
  · exact like_ok hr s runs

theorem Like.thenFragment [Std.Refl R] (h : e.Like (EmitResult.Like R) e')
    (hnext : ∀ s runs, (next s runs).Like (EmitResult.Like R) (next' s runs)) (k : Sink σ)
    (fragment : Option Bytes) :
    (e.thenFragment k fragment next).Like (EmitResult.Like R)
      (e'.thenFragment k fragment next') := by
  cases fragment with
  | none => exact h
  | some f => exact (h.followedBy fun s runs => like_refl EmitResult.like_refl _).followedBy hnext

theorem Like.ofScript [Std.Refl R] {e e' : Emission σ Returned} (h : e.Like (Returned.Like R) e') :
    (ofScript e).Like (EmitResult.Like R) (ofScript e') := by
  obtain ⟨outcome, s, runs⟩ := e
  obtain ⟨outcome', s', runs'⟩ := e'
  obtain ⟨houtcome, rfl, rfl⟩ := h
  cases houtcome with
  | ok ha =>
    cases ha with
    | value v => exact like_refl EmitResult.like_refl _
    | result hr => exact like_ok hr s runs
  | error hf =>
    cases hf
    exact like_refl EmitResult.like_refl _

/-- The result at the target of a sink that escapes has the error of the target, which is the same,
or the one that the content tells of. -/
theorem Like.ofEscaping [Std.Refl R] {e e' : Emission (Escaping σ) EmitResult}
    (h : e.Like (EmitResult.Like R) e') (codec : Codec) :
    (ofEscaping codec e).Like (EmitResult.Like R) (ofEscaping codec e') := by
  obtain ⟨outcome, st, runs⟩ := e
  obtain ⟨outcome', st', runs'⟩ := e'
  obtain ⟨houtcome, rfl, rfl⟩ := h
  cases houtcome with
  | error hf => exact ⟨.error hf, rfl, rfl⟩
  | @ok said said' ha =>
    obtain ⟨count, error⟩ := said
    obtain ⟨count', error'⟩ := said'
    obtain ⟨-, herror⟩ := ha
    unfold Emission.ofEscaping Escaping.conclude
    cases st.failure with
    | some e => exact like_refl EmitResult.like_refl _
    | none =>
      cases herror with
      | some he => exact like_ok (EmitResult.like_failed _ he) st.target runs
      | none => exact like_refl EmitResult.like_refl _

end Emission

/-! ### Blind content -/

mutual

/-- No script in the content tells causes apart that are related, unless they come from what does
not depend on references. -/
inductive Content.IsBlind (R : EmitCause → EmitCause → Prop) : Content ω ρ → Prop where
  /-- Content that does not depend on references. -/
  | closed {c : Content ω ρ} (h : c.IsClosed) : Content.IsBlind R c
  /-- A reference. -/
  | shared (ref : ρ) : Content.IsBlind R (.shared ref)
  /-- A script that goes on in the same way after results that are alike. -/
  | generator (label : Option String) {script : Script ω ρ} (h : script.Follows R script) :
    Content.IsBlind R (.generator label script)
  /-- Blind content between brackets. -/
  | brackets (before after : Bytes) {inner : Content ω ρ} (h : Content.IsBlind R inner) :
    Content.IsBlind R (.brackets before inner after)
  /-- Blind content that is escaped. -/
  | escaper (escape : Escape) (encoding : Encoding) {inner : Content ω ρ}
    (h : Content.IsBlind R inner) : Content.IsBlind R (.escaper escape encoding inner)
  /-- A template with blind content in its slots. -/
  | bound (template : Template ω) {bindings : List (Option (Content ω ρ))}
    (h : ∀ c, some c ∈ bindings → Content.IsBlind R c) :
    Content.IsBlind R (.bound template bindings)

/-- Two scripts do the same, step by step, as long as what they emit ends alike. -/
inductive Script.Follows (R : EmitCause → EmitCause → Prop) : Script ω ρ → Script ω ρ → Prop where
  /-- Both end. -/
  | done {returned returned' : Returned} (h : returned.Like R returned') :
    Script.Follows R (.done returned) (.done returned')
  /-- Both give up. -/
  | giveUp (f : Fault) : Script.Follows R (.giveUp f) (.giveUp f)
  /-- Both write, and go on with the same answer. -/
  | write (data : Bytes) {next next' : WriteOutcome → Script ω ρ}
    (h : ∀ outcome, (next outcome).Follows R (next' outcome)) :
    Script.Follows R (.write data next) (.write data next')
  /-- Both emit content that does not depend on references, and go on with the same result. -/
  | emitClosed {content : Content ω ρ} (hc : content.IsClosed)
    {next next' : EmitResult → Script ω ρ} (h : ∀ r, (next r).Follows R (next' r)) :
    Script.Follows R (.emit content next) (.emit content next')
  /-- Both emit blind content, and go on with results that are alike. -/
  | emit {content : Content ω ρ} (hc : content.IsBlind R) {next next' : EmitResult → Script ω ρ}
    (h : ∀ r r', EmitResult.Like R r r' → (next r).Follows R (next' r')) :
    Script.Follows R (.emit content next) (.emit content next')

end

/-- **Scripts that only count are blind**: an error ends them, and they return it as it is. -/
theorem Script.follows_ofActs (final : Int → Returned) (hfinal : ∀ n, (final n).Like R (final n)) :
    ∀ (acts : List (Act ω ρ)), (∀ c, Act.emit c ∈ acts → c.IsBlind R) → ∀ total : Int,
      (Script.ofActs final acts total).Follows R (Script.ofActs final acts total) := by
  intro acts
  induction acts with
  | nil => exact fun _ total => .done (hfinal total)
  | cons act acts ih =>
    intro hblind total
    have hrest := ih fun c hc => hblind c (List.mem_cons_of_mem _ hc)
    cases act with
    | write data =>
      refine .write data fun outcome => ?_
      cases outcome with
      | took n => exact hrest _
      | tookAll => exact hrest _
      | gaveUp f => exact .giveUp f
    | tryWrite data =>
      refine .write data fun outcome => ?_
      cases outcome with
      | took n => exact hrest _
      | tookAll => exact hrest _
      | gaveUp f =>
        dsimp only
        split
        · exact hrest _
        · exact .giveUp f
    | writeAll data => exact .emitClosed (fun _ _ => rfl) fun r => hrest _
    | emit content =>
      refine .emit (hblind content List.mem_cons_self) fun r r' hr => ?_
      obtain ⟨count, error⟩ := r
      obtain ⟨count', error'⟩ := r'
      obtain ⟨rfl, herror⟩ := hr
      cases herror with
      | none => exact hrest _
      | some he => exact .done (.result ⟨rfl, .some he⟩)
    | giveUp f => exact .giveUp f

/-! ### Content side by side -/

/-- The emissions of two trees of content are alike. -/
def Content.EmitsLike (R : EmitCause → EmitCause → Prop) (c c' : Tree ω) : Prop :=
  ∀ (σ : Type) (k : Sink σ) (s : σ) (runs : Runs),
    (Tree.emit c k s runs).Like (EmitResult.Like R) (Tree.emit c' k s runs)

/-- The runs of two scripts are alike. -/
def Script.RunsLike (R : EmitCause → EmitCause → Prop) (s s' : Script ω Empty) : Prop :=
  ∀ (σ : Type) (k : Sink σ) (st : σ) (runs : Runs),
    (Script.run s k st runs).Like (Returned.Like R) (Script.run s' k st runs)

theorem Content.emitsLike_refl [Std.Refl R] (c : Tree ω) : c.EmitsLike R c :=
  fun _ _ _ _ => Emission.like_refl EmitResult.like_refl _

/-- The templates have the same fragments, and related names at their slots. -/
structure Template.Resembles (R : EmitCause → EmitCause → Prop) (t t' : Template ω) : Prop where
  /-- The fragments are equal. -/
  fragments : t'.fragments = t.fragments
  /-- The slots have no names, or names that are told as related causes. -/
  nameAt : ∀ s, Option.Rel (fun n n' => R (.unbound n t.name) (.unbound n' t'.name))
    (t.nameAt s) (t'.nameAt s)

theorem Template.resembles_refl [Std.Refl R] (t : Template ω) : t.Resembles R t where
  fragments := rfl
  nameAt s := by
    cases t.nameAt s with
    | none => exact .none
    | some n => exact .some (Std.Refl.refl _)

theorem emitUnbound_like {template template' : String} {name name' : Option String}
    (h : Option.Rel (fun n n' => R (.unbound n template) (.unbound n' template')) name name')
    (s : σ) (runs : Runs) : (emitUnbound template name s runs).Like (EmitResult.Like R)
      (emitUnbound template' name' s runs) := by
  cases h with
  | none => exact Emission.like_ok (EmitResult.like_done 0) s runs
  | some hn => exact Emission.like_ok (EmitResult.like_stopped 0 hn) s runs

/-- **Slots are emitted alike** in templates with the same fragments, if what is bound to them is
emitted alike and their names are told alike. -/
theorem emitSlots_like [Std.Refl R] {t t' : Template ω} (ht : t.Resembles R t')
    {bindings bindings' : List (Option (Tree ω))}
    (hbindings : List.Forall₂ (Option.Rel (Content.EmitsLike R)) bindings bindings') :
    ∀ (slot : Nat) (k : Sink σ) (s : σ) (runs : Runs),
      (emitSlots t slot bindings k s runs).Like (EmitResult.Like R)
        (emitSlots t' slot bindings' k s runs) := by
  induction hbindings with
  | nil => exact fun slot k s runs => Emission.like_fault _ s runs
  | cons hbinding _ ih =>
    intro slot k s runs
    have hnext (s : σ) (runs : Runs) := ih (slot + 1) k s runs
    cases hbinding with
    | none =>
      rw [emitSlots, emitSlots, ht.fragments]
      exact (emitUnbound_like (ht.nameAt slot) s runs).thenFragment hnext k _
    | some hc =>
      rw [emitSlots, emitSlots, ht.fragments]
      exact (hc σ k s runs).settled.thenFragment hnext k _

theorem forall₂_expandBindings {f g : ρ → Tree ω} {P : Tree ω → Tree ω → Prop}
    {bindings : List (Option (Content ω ρ))}
    (h : ∀ c, some c ∈ bindings → P (c.expand f) (c.expand g)) :
    List.Forall₂ (Option.Rel P) (expandBindings f bindings) (expandBindings g bindings) := by
  rw [expandBindings_eq_map, expandBindings_eq_map, List.forall₂_map_left_iff,
    List.forall₂_map_right_iff, List.forall₂_same]
  intro binding hbinding
  cases binding with
  | none => exact .none
  | some c => exact .some (h c hbinding)

/-- **Blind content is emitted alike** if what it refers to is. -/
theorem Content.IsBlind.expand_emitsLike [Std.Refl R] {c : Content ω ρ} (hc : c.IsBlind R)
    {f g : ρ → Tree ω} (hfg : ∀ ref, (f ref).EmitsLike R (g ref)) :
    (c.expand f).EmitsLike R (c.expand g) := by
  have hclosed {c : Content ω ρ} (h : c.IsClosed) : (c.expand f).EmitsLike R (c.expand g) :=
    h f g ▸ emitsLike_refl _
  induction c using Content.induct (fun script => ∀ script' : Script ω ρ,
    script.Follows R script' → (script.expand f).RunsLike R (script'.expand g)) with
  | empty => exact emitsLike_refl _
  | data bytes => exact emitsLike_refl _
  | print value encoding => exact emitsLike_refl _
  | format format values encoding => exact emitsLike_refl _
  | generator label script ih =>
    cases hc with
    | closed h => exact hclosed h
    | generator _ h => exact fun σ k s runs => (ih script h σ k s _).ofScript
  | brackets before inner after ih =>
    cases hc with
    | closed h => exact hclosed h
    | brackets _ _ h =>
      intro σ k s runs
      simp only [Content.expand, Tree.emit]
      refine Emission.Like.followedBy (Emission.Like.followedBy ?_ (ih h σ k)) fun s runs => ?_
      · exact Emission.like_refl EmitResult.like_refl _
      · exact Emission.like_refl EmitResult.like_refl _
  | escaper escape encoding inner ih =>
    cases hc with
    | closed h => exact hclosed h
    | escaper _ _ h =>
      intro σ k s runs
      simp only [Content.expand, Tree.emit]
      split
      · exact (ih h _ _ _ runs).ofEscaping _
      · exact Emission.like_fault _ s runs
  | bound template bindings ih =>
    cases hc with
    | closed h => exact hclosed h
    | bound _ h =>
      intro σ k s runs
      have hbindings := forall₂_expandBindings fun c hmem => ih c hmem (h c hmem)
      simp only [Content.expand, Tree.emit]
      exact emitSlots_like (Template.resembles_refl template) hbindings 0 k s runs
  | shared ref => exact hfg ref
  | done returned script' h =>
    intro σ k s runs
    cases h with
    | done hr => exact Emission.like_ok hr s runs
  | giveUp fault script' h =>
    intro σ k s runs
    cases h with
    | giveUp => exact Emission.like_fault _ s runs
  | write data next ih script' h =>
    intro σ k s runs
    cases h with
    | write _ h => exact ih _ _ (h _) σ k _ runs
  | emit content next ihContent ih script' h =>
    intro σ k s runs
    cases h with
    | emitClosed hcontent h =>
      simp only [Script.expand, Script.run, hcontent f g]
      refine (Emission.like_refl (P := Eq) (fun _ => rfl) _).bind fun r r' s runs hr => ?_
      cases hr
      exact ih r _ (h r) σ k s runs
    | emit hcontent h =>
      simp only [Script.expand, Script.run]
      exact (ihContent hcontent σ k s runs).bind fun r r' s runs hr => ih r _ (h r r' hr) σ k s runs

end Stencil
