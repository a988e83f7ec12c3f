import Stencil.Proofs.Source.Course
import Stencil.Proofs.Source.Keys

/-!
# The outermost template of a catalogue

Only sub-templates are to be continued: what a source has for the outermost template belongs to a
new one, which is a duplicate if the catalogue has one already.  But behind the end of a
sub-template the one of the catalogue is opened again, and what follows on the outermost level is
added to it.  A source without such lines leaves it as it was, whatever stops the parse; and if
another line of the source adds to the outermost template, the parse ends in an error.

## Main definitions

* `Markup.Contributes`, `Markup.Resumes` — lines that add to the outermost template.
* `Parsing.Guarded` — the states in which the outermost template is as it was.

## Main results

* `Parsing.Guarded.step`, `Parsing.Guarded.run` — steps and runs leave it alone.
* `Catalog.parse_keeps_outermost` — so do whole sources that do not resume it.
* `Catalog.parse_resumes_outermost` — a source that does.
-/

namespace Stencil

variable {ω : Type}

/-! ### Lines that add to the outermost template -/

namespace Markup

/-- Whether a line adds to the open template. -/
def Line.adds : Markup.Line → Bool
  | .start (.ok true) _ | .block _ _ _ | .plain _ => true
  | _ => false

/-- Some line adds to the outermost template. -/
def Contributes (whats : List Markup.Line) : Prop :=
  ∃ before what after, whats = before ++ what :: after ∧ openPath [] before = [] ∧
    what.adds = true

/-- Some line is the end of a sub-template. -/
def HasEnd (whats : List Markup.Line) : Prop := ∃ name trail, .finish name trail ∈ whats

/-- Some line adds to the outermost template behind the end of a sub-template. -/
def Resumes (whats : List Markup.Line) : Prop :=
  ∃ before what after, whats = before ++ what :: after ∧ openPath [] before = [] ∧
    what.adds = true ∧ HasEnd before

theorem hasEnd_append {whats rest : List Markup.Line} :
    HasEnd (whats ++ rest) ↔ HasEnd whats ∨ HasEnd rest := by
  simp only [HasEnd, List.mem_append, exists_or]

theorem not_contributes_nil : ¬ Contributes [] := by
  rintro ⟨before, what, after, hwhats, -⟩
  cases before <;> cases hwhats

theorem contributes_concat {whats : List Markup.Line} {what : Markup.Line}
    (h : Contributes (whats ++ [what])) :
    Contributes whats ∨ openPath [] whats = [] ∧ what.adds = true := by
  obtain ⟨before, what', after, hwhats, hpath, hadds⟩ := h
  rcases List.eq_nil_or_concat after with rfl | ⟨after, last, rfl⟩
  · have hlast : whats = before ∧ what = what' := by simpa using List.append_inj' hwhats rfl
    rw [hlast.1, hlast.2]
    exact .inr ⟨hpath, hadds⟩
  · have hlast : whats = before ++ what' :: after := by
      rw [List.concat_eq_append, ← List.cons_append, ← List.append_assoc] at hwhats
      exact (List.append_inj' hwhats rfl).1
    exact .inl ⟨before, what', after, hlast, hpath, hadds⟩

end Markup

/-! ### States -/

namespace Parsing

variable {m : Markup} {st : Parsing ω} {t₀ : Template ω} {added behind : Prop}

/-- The states in which the outermost template of the catalogue is as it was. -/
structure Guarded (m : Markup) (t₀ : Template ω) (added behind : Prop) (st : Parsing ω) : Prop where
  names : ∀ n ∈ st.path, n ≠ ""
  kept : st.catalog.get? "" = some t₀
  /-- It is open only behind the end of a sub-template. -/
  fresh : st.path = [] → st.current = .stored → behind
  /-- What was added is in a duplicate. -/
  told : added → (st.duplicates.get? "").isSome = true ∨
    st.path = [] ∧ ∃ t, st.current = .detached t

/-- A step leaves the outermost template alone and, if it does not fail, goes on to guard it. -/
structure Guards (m : Markup) (t₀ : Template ω) (added behind : Prop) (path : List String)
    (r : Stepped ω) : Prop where
  kept : r.1.catalog.get? "" = some t₀
  next : r.2 = none → r.1.path = path ∧ r.1.Guarded m t₀ added behind

theorem Guards.of_some {path : List String} (h : st.catalog.get? "" = some t₀) (e : Failure ω) :
    Guards m t₀ added behind path (st, some e) := ⟨h, nofun⟩

theorem Guarded.mono {added' behind' : Prop} (h : st.Guarded m t₀ added behind)
    (hadded : added' → added) (hbehind : behind → behind') :
    st.Guarded m t₀ added' behind' where
  names := h.names
  kept := h.kept
  fresh hpath hc := hbehind (h.fresh hpath hc)
  told ha := h.told (hadded ha)

theorem Guards.mono {added' behind' : Prop} {path : List String} {r : Stepped ω}
    (h : Guards m t₀ added behind path r) (hadded : added' → added) (hbehind : behind → behind') :
    Guards m t₀ added' behind' path r :=
  ⟨h.kept, fun hnone => ⟨(h.next hnone).1, (h.next hnone).2.mono hadded hbehind⟩⟩

theorem Guarded.key_ne (hsep : m.pathSep ≠ "") (h : st.Guarded m t₀ added behind)
    (hpath : st.path ≠ []) : "" ≠ st.key m :=
  (keyOf_ne_empty hsep hpath h.names).symm

theorem key_of_path_eq_nil (hpath : st.path = []) : st.key m = "" := by
  rw [key, hpath, keyOf, String.intercalate_nil]

/-- What is stored is not the outermost template, or is a duplicate of it. -/
theorem Guarded.store (hsep : m.pathSep ≠ "") (h : st.Guarded m t₀ added behind) :
    (st.store m).catalog.get? "" = some t₀ ∧
      (added → ((st.store m).duplicates.get? "").isSome = true) := by
  unfold Parsing.store
  cases hc : st.current with
  | absent | stored =>
    refine ⟨h.kept, fun ha => ?_⟩
    rcases h.told ha with hdup | ⟨-, t, ht⟩
    · exact hdup
    · rw [hc] at ht
      cases ht
  | detached t =>
    dsimp only
    by_cases hpath : st.path = []
    · rw [key_of_path_eq_nil hpath, h.kept]
      refine ⟨h.kept, fun _ => ?_⟩
      have hput := Catalog.get?_put_self st.duplicates "" t
      exact Option.isSome_iff_exists.2 ⟨t, hput⟩
    · have hkey := h.key_ne hsep hpath
      have hdup : added → (st.duplicates.get? "").isSome = true := by
        intro ha
        exact (h.told ha).resolve_right fun hnil => hpath hnil.1
      split
      · refine ⟨h.kept, fun ha => ?_⟩
        dsimp only
        rw [Catalog.get?_put_of_ne _ _ hkey]
        exact hdup ha
      · exact ⟨(Catalog.get?_put_of_ne _ _ hkey).trans h.kept, hdup⟩

/-- When all is stored, any path can be entered; the empty one only behind an end. -/
theorem guarded_enter {path : List String} (hkept : st.catalog.get? "" = some t₀)
    (htold : added → (st.duplicates.get? "").isSome = true) (hnames : ∀ n ∈ path, n ≠ "")
    (hbehind : path = [] → behind) (pending : String) :
    (st.enter m path pending).Guarded m t₀ added behind where
  names := hnames
  kept := hkept
  fresh hpath _ := hbehind hpath
  told ha := .inl (htold ha)

/-- The open template is replaced, unless it is the outermost one of the catalogue. -/
theorem Guarded.setCurrent (hsep : m.pathSep ≠ "") (h : st.Guarded m t₀ added behind)
    (hfree : st.path = [] → st.current ≠ .stored) (t : Template ω) :
    (st.setCurrent m t).Guarded m t₀ (added ∨ st.path = []) behind := by
  have hdup := duplicates_setCurrent m st t
  have hpath' := path_setCurrent m st t
  by_cases hpath : st.path = []
  · have hset : st.setCurrent m t = { st with current := .detached t } := by
      unfold Parsing.setCurrent
      split
      · next hc => exact absurd hc (hfree hpath)
      · rfl
    rw [hset]
    exact ⟨h.names, h.kept, nofun, fun _ => .inr ⟨hpath, t, rfl⟩⟩
  · refine ⟨by rw [hpath']; exact h.names, ?_, fun hnil => ?_, fun ha => ?_⟩
    · rw [get?_setCurrent_of_ne m st t (h.key_ne hsep hpath)]
      exact h.kept
    · exact absurd (hpath'.symm.trans hnil) hpath
    · have htold := h.told (ha.resolve_right hpath)
      rw [hdup]
      exact .inl (htold.resolve_right fun hnil => hpath hnil.1)

theorem Guarded.withPending (h : st.Guarded m t₀ added behind) (pending : String) :
    ({ st with pending } : Parsing ω).Guarded m t₀ added behind :=
  ⟨h.names, h.kept, h.fresh, h.told⟩

/-! ### Steps -/

section Steps

variable (root : String) (line : Nat)

theorem Guarded.openTemplate (hsep : m.pathSep ≠ "") (h : st.Guarded m t₀ added behind)
    (lead : Except Fault Bool) {name : Except Fault (Option String)}
    (hname : name ≠ .ok (some "")) :
    Guards m t₀ added behind ((Markup.Line.start lead name).pathAfter st.path)
      ((st.store m).openTemplate m line name) := by
  obtain ⟨hkept, htold⟩ := h.store hsep
  have hpath := path_store m st
  unfold Parsing.openTemplate
  split
  · exact .of_some hkept _
  · exact .of_some hkept _
  · next name =>
    split
    · exact .of_some hkept _
    · have hnames : ∀ n ∈ st.path ++ [name], n ≠ "" := by
        intro n hn
        rcases List.mem_append.1 hn with hn | hn
        · exact h.names n hn
        · rintro rfl
          exact hname (by rw [List.mem_singleton.1 hn])
      have hne : st.path ++ [name] ≠ [] := by simp
      rw [hpath]
      exact ⟨hkept, fun _ => ⟨rfl, guarded_enter hkept htold hnames (absurd · hne) ""⟩⟩

theorem Guarded.stepStart (hsep : m.pathSep ≠ "") (h : st.Guarded m t₀ added behind)
    {lead : Except Fault Bool} {name : Except Fault (Option String)}
    (hname : name ≠ .ok (some ""))
    (hfree : (Markup.Line.start lead name).adds = true → st.path = [] → st.current ≠ .stored) :
    Guards m t₀ (added ∨ st.path = [] ∧ (Markup.Line.start lead name).adds = true) behind
      ((Markup.Line.start lead name).pathAfter st.path) (st.stepStart m root line lead name) := by
  unfold Parsing.stepStart
  split
  · exact .of_some h.kept _
  -- the break before the region is dropped
  · have hopen := h.openTemplate line hsep (.ok false) hname
    refine ⟨hopen.kept, fun hnone => ?_⟩
    obtain ⟨hpath, hnext⟩ := hopen.next hnone
    exact ⟨hpath, hnext.mono (fun ha => ha.resolve_right fun hlead => nomatch hlead.2) id⟩
  -- it is added to the template around the region
  · split
    · exact .of_some h.kept _
    · next t _ =>
      have hset := h.setCurrent hsep (hfree rfl) (st.withPending true t)
      have hopen := hset.openTemplate line hsep (.ok true) hname
      rw [path_setCurrent] at hopen
      refine ⟨hopen.kept, fun hnone => ?_⟩
      obtain ⟨hpath, hnext⟩ := hopen.next hnone
      exact ⟨hpath, hnext.mono (Or.imp_right And.left) id⟩

theorem Guarded.stepFinish (hsep : m.pathSep ≠ "") (h : st.Guarded m t₀ added behind)
    (name : Except Fault (Option String)) (trail : Except Fault Bool) :
    Guards m t₀ added True st.path.dropLast (st.stepFinish m line name trail) := by
  obtain ⟨hkept, htold⟩ := h.store hsep
  have hpath := path_store m st
  have hnames : ∀ n ∈ st.path.dropLast, n ≠ "" :=
    fun n hn => h.names n (List.mem_of_mem_dropLast hn)
  unfold Parsing.stepFinish
  split
  · exact .of_some h.kept _
  · split
    · exact .of_some h.kept _
    · dsimp only
      split
      · exact .of_some hkept _
      · rw [hpath]
        exact ⟨hkept, fun _ => ⟨rfl, guarded_enter hkept htold hnames (fun _ => trivial) _⟩⟩

/-- A line that adds to the open template replaces it. -/
theorem Guarded.replace (hsep : m.pathSep ≠ "") (h : st.Guarded m t₀ added behind)
    (hfree : st.path = [] → st.current ≠ .stored) (t : Template ω) (pending : String) :
    Guards m t₀ (added ∨ st.path = []) behind st.path
      ({ st.setCurrent m t with pending }, none) := by
  have hset := h.setCurrent hsep hfree t
  exact ⟨hset.kept, fun _ => ⟨path_setCurrent m st t, hset.withPending pending⟩⟩

theorem Guarded.stepBlock (hsep : m.pathSep ≠ "") (h : st.Guarded m t₀ added behind)
    (hfree : st.path = [] → st.current ≠ .stored) (lead : Except Fault Bool)
    (name : Except Fault (Option String)) (trail : Except Fault Bool) :
    Guards m t₀ (added ∨ st.path = []) behind st.path
      (st.stepBlock m root line lead name trail) := by
  have hset : ∀ t, (st.setCurrent m t).catalog.get? "" = some t₀ :=
    fun t => (h.setCurrent hsep hfree t).kept
  unfold Parsing.stepBlock
  split
  · exact .of_some h.kept _
  · split
    · exact .of_some (hset _) _
    · unfold addBlock
      split
      · exact .of_some (hset _) _
      · split
        · exact .of_some (hset _) _
        · split
          · exact .of_some (hset _) _
          · exact h.replace hsep hfree _ _

theorem Guarded.stepPlain (hsep : m.pathSep ≠ "") (h : st.Guarded m t₀ added behind)
    (hfree : st.path = [] → st.current ≠ .stored) (text : String) :
    Guards m t₀ (added ∨ st.path = []) behind st.path (st.stepPlain m root line text) := by
  unfold Parsing.stepPlain
  split
  · exact .of_some h.kept _
  · dsimp only
    split
    · exact .of_some (h.setCurrent hsep hfree _).kept _
    · exact h.replace hsep hfree _ _

/-- **A step leaves the outermost template alone**, if the line does not add to it behind the end of
a sub-template. -/
theorem Guarded.step (hsep : m.pathSep ≠ "") (h : st.Guarded m t₀ added behind)
    {what : Markup.Line} (hname : ∀ lead, what ≠ .start lead (.ok (some "")))
    (hfree : st.path = [] → what.adds = true → ¬ behind) :
    Guards m t₀ (added ∨ st.path = [] ∧ what.adds = true) (behind ∨ Markup.HasEnd [what])
      (what.pathAfter st.path) (st.step m root line what) := by
  have hcurrent : what.adds = true → st.path = [] → st.current ≠ .stored := by
    intro hadds hpath hc
    exact hfree hpath hadds (h.fresh hpath hc)
  cases what with
  | start lead name =>
    have hstep := h.stepStart root line hsep (fun hn => hname lead (by rw [hn])) hcurrent
    exact hstep.mono id .inl
  | finish name trail =>
    have hstep := h.stepFinish line hsep name trail
    exact hstep.mono (fun ha => ha.resolve_right fun hadds => nomatch hadds.2)
      fun _ => .inr ⟨name, trail, List.mem_singleton.2 rfl⟩
  | block lead name trail =>
    have hstep := h.stepBlock root line hsep (hcurrent rfl) lead name trail
    exact hstep.mono (Or.imp_right And.left) .inl
  | plain text =>
    have hstep := h.stepPlain root line hsep (hcurrent rfl) text
    exact hstep.mono (Or.imp_right And.left) .inl

end Steps

/-! ### Runs -/

/-- **A run leaves the outermost template alone**, if no line adds to it behind the end of a
sub-template. -/
theorem Guarded.run (root : String) (hsep : m.pathSep ≠ "") (lines : List String) :
    ∀ {before : List Markup.Line} {st : Parsing ω} (line : Nat),
      st.path = Markup.openPath [] before →
      st.Guarded m t₀ (Markup.Contributes before) (Markup.HasEnd before) →
      (∀ lead, .start lead (.ok (some "")) ∉ lines.map m.classify) →
      ¬ Markup.Resumes (before ++ lines.map m.classify) →
      ∃ behind, Guards m t₀ (Markup.Contributes (before ++ lines.map m.classify)) behind
        (Markup.openPath [] (before ++ lines.map m.classify))
        (Parsing.run m root line lines st) := by
  induction lines with
  | nil =>
    intro before st line hpath h _ _
    rw [List.map_nil, List.append_nil]
    exact ⟨_, h.kept, fun _ => ⟨hpath, h⟩⟩
  | cons text lines ih =>
    intro before st line hpath h hnames hres
    have hname : ∀ lead, m.classify text ≠ .start lead (.ok (some "")) := by
      intro lead hwhat
      exact hnames lead (by simp [hwhat])
    have hstep := h.step root line hsep hname
      (fun hnil hadds hend => hres ⟨before, _, _, rfl, hpath ▸ hnil, hadds, hend⟩)
    rw [List.map_cons, ← List.singleton_append, ← List.append_assoc] at hres ⊢
    unfold Parsing.run
    split
    · next st₁ heq =>
      rw [heq] at hstep
      obtain ⟨hpath₁, hnext⟩ := hstep.next rfl
      refine ih (line + 1) ?_ (hnext.mono ?_ ?_) ?_ hres
      · rw [hpath₁, hpath, Markup.openPath_append]
        rfl
      · intro hadded
        rw [hpath]
        exact Markup.contributes_concat hadded
      · exact Markup.hasEnd_append.2
      · exact fun lead hmem => hnames lead (List.mem_cons_of_mem _ hmem)
    · next st₁ e heq =>
      rw [heq] at hstep
      exact ⟨True, .of_some hstep.kept e⟩

/-- At the end of a source the outermost template is still as it was; if something was added, there
is a duplicate of it. -/
theorem Guarded.close (hsep : m.pathSep ≠ "") (h : st.Guarded m t₀ added behind) :
    (st.close m).1.catalog.get? "" = some t₀ ∧
      (added → (st.close m).2 ≠ none ∧ (st.path = [] →
        ∃ ds : Catalog ω, (st.close m).2 = some (.parse (.duplicates ds)) ∧
          (ds.get? "").isSome = true)) := by
  obtain ⟨hkept, htold⟩ := h.store hsep
  unfold Parsing.close
  by_cases hpath : st.path = []
  · rw [if_neg (by simp [hpath])]
    dsimp only
    cases hdup : (st.store m).duplicates with
    | nil =>
      refine ⟨hkept, fun ha => ?_⟩
      have hsome := htold ha
      rw [hdup, Catalog.get?_nil] at hsome
      cases hsome
    | cons d ds =>
      rw [← hdup, if_neg (by simp [hdup])]
      exact ⟨hkept, fun ha => ⟨nofun, fun _ => ⟨_, rfl, htold ha⟩⟩⟩
  · rw [if_pos (by simpa using hpath)]
    exact ⟨h.kept, fun _ => ⟨nofun, fun hnil => absurd hnil hpath⟩⟩

end Parsing

/-- **The outermost template of a catalogue stays.**  Take a source without empty names, no line of
which adds to the outermost template behind the end of a sub-template.  Parsing it into a catalogue
that has an outermost template leaves that as it was, whatever stops the parse.  If some line adds
to the outermost template, something stops it: a duplicate of this template, if nothing else
does. -/
theorem Catalog.parse_keeps_outermost {m : Markup} (hm : m.fault? = none) {c : Catalog ω}
    {t₀ : Template ω} (hroot : c.get? "" = some t₀) (root : String) (source : Lines)
    (hnames : ∀ lead, .start lead (.ok (some "")) ∉ source.lines.map m.classify)
    (hres : ¬ Markup.Resumes (source.lines.map m.classify)) :
    (c.parse m root source).1.get? "" = some t₀ ∧
    (Markup.Contributes (source.lines.map m.classify) → (c.parse m root source).2 ≠ none ∧
      ((Parsing.run m root 1 source.lines (.start c)).2 = none → source.fault = none →
        Markup.openPath [] (source.lines.map m.classify) = [] →
        ∃ ds : Catalog ω, (c.parse m root source).2 = some (.parse (.duplicates ds)) ∧
          (ds.get? "").isSome = true)) := by
  have hsep := Markup.pathSep_ne_empty hm
  have hstart : (Parsing.start c).Guarded m t₀ (Markup.Contributes []) (Markup.HasEnd []) :=
    ⟨nofun, hroot, nofun, fun ha => absurd ha Markup.not_contributes_nil⟩
  obtain ⟨behind, hrun⟩ := hstart.run root hsep source.lines 1 rfl hnames hres
  rw [List.nil_append] at hrun
  unfold Catalog.parse
  generalize Parsing.run m root 1 source.lines (.start c) = r at hrun ⊢
  obtain ⟨st, e⟩ := r
  cases e with
  | some e => exact ⟨hrun.kept, fun _ => ⟨nofun, nofun⟩⟩
  | none =>
    obtain ⟨hpath, hguarded⟩ := hrun.next rfl
    obtain ⟨hkept, hclose⟩ := hguarded.close hsep
    cases source.fault with
    | some f => exact ⟨hrun.kept, fun _ => ⟨nofun, fun _ hfault => nomatch hfault⟩⟩
    | none =>
      refine ⟨hkept, fun hadded => ?_⟩
      obtain ⟨hne, hduplicate⟩ := hclose hadded
      exact ⟨hne, fun _ _ hnil => hduplicate (hpath.trans hnil)⟩

/-- What stands before a sub-template is a duplicate of the outermost template. -/
theorem Catalog.parse_keeps_outermost_marks : ∃ c : Catalog Empty,
    Catalog.parse [] .marks "" ⟨["first"], none⟩ = (c, none) ∧
    ((c.parse .marks "" ⟨["second", "<!sub", "one", ">!sub"], none⟩).1.get? "").map
      Template.fragments = some [Utf8.encode "first".toList] ∧
    ∃ ds : Catalog Empty, (c.parse .marks "" ⟨["second", "<!sub", "one", ">!sub"], none⟩).2 =
      some (.parse (.duplicates ds)) ∧ (ds.get? "").isSome = true := by
  obtain ⟨c, t₀, hparse, hroot, hfirst, hrun⟩ : ∃ (c : Catalog Empty) (t₀ : Template Empty),
      Catalog.parse [] .marks "" ⟨["first"], none⟩ = (c, none) ∧ c.get? "" = some t₀ ∧
        t₀.fragments = [Utf8.encode "first".toList] ∧
        (Parsing.run .marks "" 1 ["second", "<!sub", "one", ">!sub"] (.start c)).2 = none :=
    ⟨_, _, rfl, rfl, rfl, rfl⟩
  have hlines : ["second", "<!sub", "one", ">!sub"].map Markup.marks.classify =
      [.plain "second", .start (.ok false) (.ok (some "sub")), .plain "one",
        .finish (.ok (some "sub")) (.ok false)] := rfl
  have hres : ¬ Markup.Resumes (["second", "<!sub", "one", ">!sub"].map Markup.marks.classify) := by
    rw [hlines]
    rintro ⟨before, what, after, hwhats, -, -, name, trail, hend⟩
    -- nothing stands behind the only end
    have hinit : before <+:
        [.plain "second", .start (.ok false) (.ok (some "sub")), .plain "one"] := by
      have hstarts := congrArg List.dropLast hwhats
      rw [List.dropLast_append_of_ne_nil (List.cons_ne_nil _ _)] at hstarts
      exact ⟨_, hstarts.symm⟩
    have hmem := hinit.subset hend
    simp at hmem
  obtain ⟨hkept, hadded⟩ := Catalog.parse_keeps_outermost (m := .marks) rfl hroot ""
    ⟨["second", "<!sub", "one", ">!sub"], none⟩ (by rw [hlines]; simp) hres
  obtain ⟨-, hduplicate⟩ := hadded ⟨[], _, _, hlines, rfl, rfl⟩
  refine ⟨c, hparse, ?_, hduplicate hrun rfl (by rw [hlines]; rfl)⟩
  rw [hkept, Option.map_some, hfirst]

/-- What follows a sub-template is added to the outermost template that the catalogue has from
another source, and no error is raised. -/
theorem Catalog.parse_resumes_outermost_marks : ∃ c c' : Catalog Empty,
    Catalog.parse [] .marks "" ⟨["first"], none⟩ = (c, none) ∧
    c.parse .marks "" ⟨["<!sub", "one", ">sub", "second"], none⟩ = (c', none) ∧
    (c.get? "").map Template.fragments = some [Utf8.encode "first".toList] ∧
    (c'.get? "").map Template.fragments = some [Utf8.encode "first\nsecond".toList] :=
  ⟨_, _, rfl, rfl, rfl, rfl⟩

end Stencil
