import Stencil.Proofs.Bound.Binding
import Stencil.Proofs.Template.Produced

/-!
# Binding call after call

Content is bound to names by calls of several kinds, in any order and to any names.  The slots of a
name are its own, and each call puts its content there afresh.  So what a slot holds in the end is
the content of the last call for its name, under the wrap of the slot; calls for other names, and
those for names that the template does not have, make no difference.

## Main definitions

* `BindCall` — the calls that bind content to a name.
* `Bound.call`, `Bound.calls` — what a call does, and what calls do one after the other.
* `BindCall.last?` — the content of the last call for a name.

## Main results

* `Bound.call_ok` — what one call changes, and what it answers.
* `Bound.calls_ok` — what the slots hold after calls.
* `Bound.calls_congr` — only the last calls for each name matter.
* `Bound.calls_fresh` — the same for a template with nothing bound, and the order of calls.
-/

namespace Stencil

variable {ω ρ : Type}

/-- A call that binds content to a name. -/
inductive BindCall (ω ρ : Type) where
  /-- Content is bound to a name that the template must have. -/
  | name (name : String) (content : Content ω ρ)
  /-- Content is bound to a name if the template has it. -/
  | ifPresent (name : String) (content : Content ω ρ)
  /-- A value is bound as text. -/
  | value (name : String) (value : Value)
  /-- Values filled into a format are bound. -/
  | format (name format : String) (values : List Value)
  /-- A script is bound. -/
  | callback (name : String) (label : Option String) (script : Script ω ρ)

namespace BindCall

/-- The name that the call is for. -/
def target : BindCall ω ρ → String
  | name n _ | ifPresent n _ | value n _ | format n _ _ | callback n _ _ => n

/-- The content that the call binds. -/
def content : BindCall ω ρ → Content ω ρ
  | name _ c | ifPresent _ c => c
  | value _ v => .print v .standard
  | format _ fmt values => .format fmt values .standard
  | callback _ label script => .generator label script

/-- What the call answers if it is made of a template: whether that has the name, if this is asked,
and otherwise nothing; but a name that it must have and lacks is an error. -/
def answer (t : Template ω) (c : BindCall ω ρ) : Except (Failure ω) (Option Bool) :=
  match c with
  | ifPresent n _ => .ok (some (decide (n ∈ t.names)))
  | name n _ | value n _ | format n _ _ | callback n _ _ =>
    if n ∈ t.names then .ok none else .error (.template (.unknownPlaceholder n t.name))

/-- The content of the last call for a name. -/
def last? (cs : List (BindCall ω ρ)) (n : String) : Option (Content ω ρ) :=
  (cs.filter (·.target = n)).getLast?.map content

@[simp] theorem last?_nil (n : String) : last? ([] : List (BindCall ω ρ)) n = none := rfl

theorem last?_append (cs cs' : List (BindCall ω ρ)) (n : String) :
    last? (cs ++ cs') n = (last? cs' n).or (last? cs n) := by
  rw [last?, List.filter_append, List.getLast?_append, Option.map_or]
  rfl

theorem last?_cons (c : BindCall ω ρ) (cs : List (BindCall ω ρ)) (n : String) :
    last? (c :: cs) n = (last? cs n).or (if c.target = n then some c.content else none) := by
  rw [← List.singleton_append, last?_append]
  by_cases hn : c.target = n <;> simp [last?, hn]

/-- A name has a last call just if some call is for it. -/
theorem isSome_last?_iff {cs : List (BindCall ω ρ)} {n : String} :
    (last? cs n).isSome = true ↔ ∃ c ∈ cs, c.target = n := by
  induction cs with
  | nil => simp
  | cons c cs ih =>
    rw [last?_cons, Option.isSome_or, Bool.or_eq_true, ih]
    by_cases hn : c.target = n <;> simp [hn]

/-- Calls for different names may change places. -/
theorem last?_swap {c c' : BindCall ω ρ} (hne : c.target ≠ c'.target)
    (before after : List (BindCall ω ρ)) (n : String) :
    last? (before ++ c' :: c :: after) n = last? (before ++ c :: c' :: after) n := by
  simp only [last?_append, last?_cons]
  by_cases hn : c.target = n
  · have hn' : ¬ c'.target = n := fun h => hne (hn.trans h.symm)
    simp [hn, hn']
  · simp [hn]

/-- A call for the same name right after it leaves nothing of a call. -/
theorem last?_again {c c' : BindCall ω ρ} (heq : c.target = c'.target)
    (before after : List (BindCall ω ρ)) (n : String) :
    last? (before ++ c' :: after) n = last? (before ++ c :: c' :: after) n := by
  simp only [last?_append, last?_cons, heq]
  by_cases hn : c'.target = n
  · simp [hn]
  · simp [hn]

end BindCall

namespace Bound

variable [Wrapping ω (Content ω ρ)]

/-- The answer of a call that answers nothing. -/
def silently {α : Type} (r : Bound ω (Content ω ρ) × Except (Failure ω) α) :
    Bound ω (Content ω ρ) × Except (Failure ω) (Option Bool) :=
  (r.1, r.2.map fun _ => none)

/-- The bound template after a call, and what the call answers. -/
def call (b : Bound ω (Content ω ρ)) (c : BindCall ω ρ) :
    Bound ω (Content ω ρ) × Except (Failure ω) (Option Bool) :=
  match c with
  | .name n content => silently (b.bindName n content)
  | .ifPresent n content =>
    let (b, present) := b.bindIfPresent n content
    (b, (present.mapError .fault).map some)
  | .value n v => silently (b.bindName n (.print v .standard))
  | .format n fmt values => silently (b.bindName n (.format fmt values .standard))
  | .callback n label script => silently (b.bindName n (.generator label script))

/-- The bound template after calls, some of which may fail. -/
def calls (b : Bound ω (Content ω ρ)) (cs : List (BindCall ω ρ)) : Bound ω (Content ω ρ) :=
  cs.foldl (fun b c => (b.call c).1) b

@[simp] theorem calls_nil (b : Bound ω (Content ω ρ)) : b.calls [] = b := rfl

@[simp] theorem calls_cons (b : Bound ω (Content ω ρ)) (c : BindCall ω ρ)
    (cs : List (BindCall ω ρ)) : b.calls (c :: cs) = (b.call c).1.calls cs := rfl

variable {t : Template ω} {bindings : List (Option (Content ω ρ))}

/-- **A call binds its content to its name**: the slots of the name hold it, each under its wrap,
and the others keep what they had. -/
theorem call_ok (h : t.WellFormed) (hlen : bindings.length = t.slotCount) (c : BindCall ω ρ) :
    ∃ bindings', call ⟨t, bindings⟩ c = (⟨t, bindings'⟩, c.answer t) ∧
      bindings'.length = t.slotCount ∧ ∀ s, bindings'[s]? =
        if t.nameAt s = some c.target then some (some (Wrapping.under (t.wrapAt s) c.content))
        else bindings[s]? := by
  have hnamed (n : String) (content : Content ω ρ) :
      ∃ bindings', silently (bindName ⟨t, bindings⟩ n content) = (⟨t, bindings'⟩,
          if n ∈ t.names then .ok none else .error (.template (.unknownPlaceholder n t.name))) ∧
        bindings'.length = t.slotCount ∧ ∀ s, bindings'[s]? =
          if t.nameAt s = some n then some (some (Wrapping.under (t.wrapAt s) content))
          else bindings[s]? := by
    obtain ⟨bindings', hrun, hkept⟩ := bindName_cases h hlen n content
    refine ⟨bindings', ?_, hkept⟩
    rw [silently, hrun]
    by_cases hn : n ∈ t.names
    · rw [if_pos hn, if_pos hn]
      rfl
    · rw [if_neg hn, if_neg hn]
      rfl
  cases c with
  | name n content => exact hnamed n content
  | ifPresent n content =>
    obtain ⟨bindings', hrun, hkept⟩ := bindIfPresent_ok h hlen n content
    refine ⟨bindings', ?_, hkept⟩
    rw [call, hrun]
    rfl
  | value n v => exact hnamed n _
  | format n fmt values => exact hnamed n _
  | callback n label script => exact hnamed n _

/-- What a slot holds after calls; `old` was there before. -/
def heldAfter (t : Template ω) (cs : List (BindCall ω ρ)) (old : Option (Option (Content ω ρ)))
    (slot : Nat) : Option (Option (Content ω ρ)) :=
  ((t.nameAt slot).bind (BindCall.last? cs)).elim old fun c =>
    some (some (Wrapping.under (t.wrapAt slot) c))

theorem heldAfter_cons (t : Template ω) (c : BindCall ω ρ) (cs : List (BindCall ω ρ))
    (old : Option (Option (Content ω ρ))) (slot : Nat) :
    heldAfter t cs (if t.nameAt slot = some c.target then
        some (some (Wrapping.under (t.wrapAt slot) c.content)) else old) slot =
      heldAfter t (c :: cs) old slot := by
  unfold heldAfter
  cases t.nameAt slot with
  | none => rfl
  | some n =>
    rw [Option.bind_some, Option.bind_some, BindCall.last?_cons]
    cases BindCall.last? cs n with
    | some content => rfl
    | none =>
      by_cases hn : c.target = n
      · simp [hn]
      · have hn' : ¬ n = c.target := fun h => hn h.symm
        simp [hn, hn']

/-- **The last call for its name decides what a slot holds**; a slot without such a call keeps what
it had. -/
theorem calls_ok (h : t.WellFormed) : ∀ (cs : List (BindCall ω ρ))
    (bindings : List (Option (Content ω ρ))), bindings.length = t.slotCount →
    ∃ bindings', calls ⟨t, bindings⟩ cs = ⟨t, bindings'⟩ ∧ bindings'.length = t.slotCount ∧
      ∀ s, bindings'[s]? = heldAfter t cs bindings[s]? s := by
  intro cs
  induction cs with
  | nil =>
    intro bindings hlen
    refine ⟨bindings, rfl, hlen, fun s => ?_⟩
    unfold heldAfter
    cases t.nameAt s <;> rfl
  | cons c cs ih =>
    intro bindings hlen
    obtain ⟨bindings₁, hcall, hlen₁, hat₁⟩ := call_ok h hlen c
    obtain ⟨bindings', hcalls, hlen', hat⟩ := ih bindings₁ hlen₁
    refine ⟨bindings', ?_, hlen', fun s => ?_⟩
    · rw [calls_cons, hcall]
      exact hcalls
    · rw [hat, hat₁, heldAfter_cons]

/-- Calls of which the last ones for each name bind the same do the same. -/
theorem calls_congr (h : t.WellFormed) (hlen : bindings.length = t.slotCount)
    {cs cs' : List (BindCall ω ρ)} (hlast : ∀ n, BindCall.last? cs n = BindCall.last? cs' n) :
    calls ⟨t, bindings⟩ cs = calls ⟨t, bindings⟩ cs' := by
  obtain ⟨bindings₁, hcalls, -, hat⟩ := calls_ok h cs bindings hlen
  obtain ⟨bindings₂, hcalls', -, hat'⟩ := calls_ok h cs' bindings hlen
  rw [hcalls, hcalls']
  refine congrArg (Bound.mk t) (List.ext_getElem? fun s => ?_)
  rw [hat, hat', heldAfter, heldAfter, funext hlast]

/-- A call for a name that the template does not have changes nothing. -/
theorem call_unknown (h : t.WellFormed) (hlen : bindings.length = t.slotCount)
    {c : BindCall ω ρ} (hc : c.target ∉ t.names) : (call ⟨t, bindings⟩ c).1 = ⟨t, bindings⟩ := by
  obtain ⟨bindings', hcall, -, hat⟩ := call_ok h hlen c
  rw [hcall]
  refine congrArg (Bound.mk t) (List.ext_getElem? fun s => ?_)
  rw [hat, if_neg fun hs => hc (h.lists.mem_names hs)]

/-- Calls on a template with nothing bound leave at a slot the content of the last call for its
name. -/
theorem calls_fresh_ok (h : t.WellFormed) (cs : List (BindCall ω ρ)) :
    ∃ bindings, calls (fresh t) cs = ⟨t, bindings⟩ ∧ bindings.length = t.slotCount ∧
      ∀ s, s < t.slotCount → bindings[s]? =
        some (((t.nameAt s).bind (BindCall.last? cs)).map (Wrapping.under (t.wrapAt s))) := by
  obtain ⟨bindings, hrun, hlen, hat⟩ := calls_ok h cs (List.replicate t.slotCount none)
    List.length_replicate
  refine ⟨bindings, hrun, hlen, fun s hs => ?_⟩
  rw [hat, List.getElem?_replicate, if_pos hs, heldAfter]
  cases (t.nameAt s).bind (BindCall.last? cs) <;> rfl

/-- The slots that have content then are those of the names that calls were for. -/
theorem bound_iff_of_last (h : t.WellFormed) (hlen : bindings.length = t.slotCount)
    {cs : List (BindCall ω ρ)} (hat : ∀ s, s < t.slotCount → bindings[s]? =
      some (((t.nameAt s).bind (BindCall.last? cs)).map (Wrapping.under (t.wrapAt s)))) (s : Nat) :
    (∃ content, bindings[s]? = some (some content)) ↔ ∃ c ∈ cs, t.nameAt s = some c.target := by
  constructor
  · rintro ⟨content, hcontent⟩
    have hs : s < t.slotCount := by
      rw [← hlen]
      exact (List.getElem?_eq_some_iff.1 hcontent).1
    rw [hat s hs] at hcontent
    obtain ⟨last, hlast, -⟩ := Option.map_eq_some_iff.1 (Option.some.inj hcontent)
    obtain ⟨n, hn, hlast⟩ := Option.bind_eq_some_iff.1 hlast
    obtain ⟨c, hmem, rfl⟩ := BindCall.isSome_last?_iff.1 (Option.isSome_of_mem hlast)
    exact ⟨c, hmem, hn⟩
  · rintro ⟨c, hmem, hn⟩
    have hs : s < t.slotCount := h.lt_slotCount hn
    obtain ⟨last, hlast⟩ := Option.isSome_iff_exists.1
      (BindCall.isSome_last?_iff.2 ⟨c, hmem, rfl⟩)
    refine ⟨Wrapping.under (t.wrapAt s) last, ?_⟩
    rw [hat s hs, hn, Option.bind_some, hlast]
    rfl

/-- **The order of calls.**  After any calls on a produced template with nothing bound, a slot holds
the content of the last call for its name, under the wrap of the slot, and is without content if it
has no name or no call was for it.  A call answers whether the template has its name; if it has not,
nothing changes.  Calls for different names may change places, and a call leaves nothing behind if
the next one is for the same name. -/
theorem calls_fresh (h : t.IsProduced) (cs : List (BindCall ω ρ)) :
    let b := (fresh t : Bound ω (Content ω ρ)).calls cs
    b.template = t ∧ b.bindings.length = t.slotCount ∧
      (∀ s, s < t.slotCount → b.bindings[s]? =
        some (((t.nameAt s).bind (BindCall.last? cs)).map (Wrapping.under (t.wrapAt s)))) ∧
      (∀ s, (∃ c, b.bindings[s]? = some (some c)) ↔ ∃ c ∈ cs, t.nameAt s = some c.target) ∧
      (∀ c, (b.call c).2 = c.answer t ∧ (c.target ∉ t.names → (b.call c).1 = b)) ∧
      ∀ before c c' after, cs = before ++ c :: c' :: after →
        (c.target ≠ c'.target → (fresh t).calls (before ++ c' :: c :: after) = b) ∧
        (c.target = c'.target → (fresh t).calls (before ++ c' :: after) = b) := by
  have hwf := h.isBuilt.wellFormed
  obtain ⟨bindings, hrun, hlen, hat⟩ := calls_fresh_ok hwf cs
  intro b
  have hb : b = ⟨t, bindings⟩ := hrun
  rw [hb]
  refine ⟨rfl, hlen, hat, bound_iff_of_last hwf hlen hat, fun c => ⟨?_, call_unknown hwf hlen⟩, ?_⟩
  · obtain ⟨bindings', hcall, -⟩ := call_ok hwf hlen c
    rw [hcall]
  · rintro before c c' after rfl
    have hfresh : (List.replicate t.slotCount (none : Option (Content ω ρ))).length = t.slotCount :=
      List.length_replicate
    constructor
    · intro hne
      exact (calls_congr hwf hfresh (BindCall.last?_swap hne before after)).trans hrun
    · intro heq
      exact (calls_congr hwf hfresh (BindCall.last?_again heq before after)).trans hrun

/-- Two names have become one, so its two slots hold the same content, one of them under a wrap; the
old name is unknown by then, and it makes no difference when the other name is bound, or what was
bound before. -/
theorem calls_fresh_merged :
    let t : Template (Wrap Empty) := (Template.blank "page").edits
      [.addPlaceholder "head" none, .addPlaceholder "body" (some .html),
        .addPlaceholder "foot" none, .addStatic [10], .rename "head" "body" true]
    let draft : BindCall (Wrap Empty) Empty := .name "body" (.data [97])
    let body : BindCall (Wrap Empty) Empty := .value "body" (.str "<p>")
    let foot : BindCall (Wrap Empty) Empty := .format "foot" "%d" [.int 7]
    let b := (fresh t).calls [draft, body, .ifPresent "head" .empty, foot]
    t.table = [("body", [0, 1]), ("foot", [2])] ∧
      b.bindings[0]? = some (some (.print (.str "<p>") .standard)) ∧
      b.bindings[1]? =
        some (some (.escaper Escape.html .standard (.print (.str "<p>") .standard))) ∧
      b.bindings[2]? = some (some (.format "%d" [.int 7] .standard)) ∧
      b.bindings[3]? = some none ∧
      (b.call (.ifPresent "head" .empty)).2 = .ok (some false) ∧
      (b.call (.name "head" .empty)).2 = .error (.template (.unknownPlaceholder "head" "page")) ∧
      (fresh t).calls [draft, body, foot, .ifPresent "head" .empty] = b ∧
      (fresh t).calls [body, .ifPresent "head" .empty, foot] = b := by
  intro t draft body foot b
  obtain ⟨-, -, hslot, -, hanswer, horder⟩ := calls_fresh (ρ := Empty)
    (Template.IsProduced.edits _ (.blank "page") : t.IsProduced)
    [draft, body, .ifPresent "head" .empty, foot]
  exact ⟨by decide +kernel, hslot 0 (by decide +kernel), hslot 1 (by decide +kernel),
    hslot 2 (by decide +kernel), hslot 3 (by decide +kernel), (hanswer _).1, (hanswer _).1,
    (horder [draft, body] _ _ [] rfl).1 (by decide),
    (horder [] _ _ [.ifPresent "head" .empty, foot] rfl).2 rfl⟩

end Bound
end Stencil
