import Stencil.Content.Basic

/-!
# Induction on content

Content is a tree: the contents of a bound template stand in a list of slots, and a script emits
content at each of its steps.  The principles here give the hypothesis for every content that is
bound somewhere, so that no proof has to speak of lists of slots.

## Main results

* `Content.induct` — induction on content and on the scripts in it.
* `Content.inductBound` — induction on content where only bound content matters.
-/

namespace Stencil
namespace Content

variable {ω ρ : Type} {motive : Content ω ρ → Prop}

/-- Induction on content and on the scripts in it. -/
@[elab_as_elim]
theorem induct (script : Script ω ρ → Prop)
    (empty : motive .empty)
    (data : ∀ bytes, motive (.data bytes))
    (print : ∀ value encoding, motive (.print value encoding))
    (format : ∀ format values encoding, motive (.format format values encoding))
    (generator : ∀ label s, script s → motive (.generator label s))
    (brackets : ∀ before inner after, motive inner → motive (.brackets before inner after))
    (escaper : ∀ escape encoding inner, motive inner → motive (.escaper escape encoding inner))
    (bound : ∀ template bindings, (∀ c, some c ∈ bindings → motive c) →
      motive (.bound template bindings))
    (shared : ∀ ref, motive (.shared ref))
    (done : ∀ returned, script (.done returned))
    (giveUp : ∀ f, script (.giveUp f))
    (write : ∀ data next, (∀ outcome, script (next outcome)) → script (.write data next))
    (emit : ∀ content next, motive content → (∀ result, script (next result)) →
      script (.emit content next))
    (c : Content ω ρ) : motive c := by
  -- the motive for a list of bindings is the hypothesis for every content in it
  refine @Content.rec ω ρ motive script (fun bindings => ∀ c, some c ∈ bindings → motive c)
    (fun binding => ∀ c, some c = binding → motive c)
    empty data print format generator brackets escaper bound shared done giveUp write emit
    ?_ ?_ ?_ ?_ c
  · intro c hc
    cases hc
  · intro binding rest ih ihs c hc
    rcases List.mem_cons.1 hc with hc | hc
    · exact ih c hc
    · exact ihs c hc
  · intro c hc
    cases hc
  · intro inner ih c hc
    exact Option.some.inj hc ▸ ih

/-- Content that is not a bound template. -/
def IsLeaf (c : Content ω ρ) : Prop := ∀ template bindings, c ≠ .bound template bindings

/-- Induction on content as a tree of bound templates. -/
@[elab_as_elim]
theorem inductBound
    (leaf : ∀ c : Content ω ρ, c.IsLeaf → motive c)
    (bound : ∀ template bindings, (∀ c, some c ∈ bindings → motive c) →
      motive (.bound template bindings))
    (c : Content ω ρ) : motive c := by
  induction c using Content.induct (fun _ => True) with
  | bound template bindings ih => exact bound template bindings ih
  | empty => exact leaf _ nofun
  | data bytes => exact leaf _ nofun
  | print value encoding => exact leaf _ nofun
  | format format values encoding => exact leaf _ nofun
  | generator label s => exact leaf _ nofun
  | brackets before inner after => exact leaf _ nofun
  | escaper escape encoding inner => exact leaf _ nofun
  | shared ref => exact leaf _ nofun
  | done => trivial
  | giveUp => trivial
  | write => trivial
  | emit => trivial

end Content
end Stencil
