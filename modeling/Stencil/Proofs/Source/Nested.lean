import Stencil.Proofs.Markup.Legible
import Stencil.Proofs.Source.Keys
import Stencil.Proofs.Source.Steady

/-!
# Nested bodies

What stands between a start line and its end line is parsed as if it were a source of its own, and
its templates are found below the key of the sub-template.  All other templates are those of the
source without it: no break and no open template crosses the two lines.

The edits of the body are those of a source of its own, made to longer paths.  Only they are made to
templates below the key, as long as this is the key of no other path.

## Main definitions

* `EditLog.below` — edits made to longer paths.
* `Markup.Opened` — the paths that lines open.

## Main results

* `Markup.editLog_below` — a body makes its own edits below any path.
* `Shelf.replay_below` — edits below a path are made to the templates below its key.
* `Catalog.parse_nested`, `Catalog.parse_nested_standard` — nested bodies in sources.
-/

namespace Stencil

variable {ω : Type}

/-- Edits made to the paths below a path. -/
def EditLog.below (path : List String) (log : EditLog ω) : EditLog ω :=
  log.map fun e => (path ++ e.1, e.2)

/-! ### Shelves -/

namespace Shelf

variable {sep root key : String}

theorem edit_self (sep root : String) (shelf : Shelf ω) (key : String) (es : List (Edit ω)) :
    shelf.edit sep root key es key =
      some (((shelf key).getD (.blank (Parsing.nameOf sep root key))).edits es) := if_pos rfl

theorem edit_of_ne {k : String} (h : k ≠ key) (shelf : Shelf ω) (es : List (Edit ω)) :
    shelf.edit sep root key es k = shelf k := if_neg h

theorem replay_append (shelf : Shelf ω) (log log' : EditLog ω) :
    shelf.replay sep root (log ++ log') = (shelf.replay sep root log).replay sep root log' :=
  List.foldl_append

/-- Edits made to other templates leave a template as it was. -/
theorem replay_of_ne {log : EditLog ω} (h : ∀ e ∈ log, Parsing.keyOf sep e.1 ≠ key) :
    ∀ shelf : Shelf ω, shelf.replay sep root log key = shelf key := by
  induction log with
  | nil => exact fun shelf => rfl
  | cons e log ih =>
    intro shelf
    have hrest := ih (fun e' he' => h e' (List.mem_cons_of_mem _ he'))
    have hkey : key ≠ Parsing.keyOf sep e.1 := (h e List.mem_cons_self).symm
    rw [replay, List.foldl_cons, ← replay, hrest, edit_of_ne hkey]

/-- What becomes of a template does not depend on the others. -/
theorem replay_congr (log : EditLog ω) : ∀ {shelf shelf' : Shelf ω}, shelf key = shelf' key →
    shelf.replay sep root log key = shelf'.replay sep root log key := by
  induction log with
  | nil => exact fun h => h
  | cons e log ih =>
    intro shelf shelf' h
    rw [replay, replay, List.foldl_cons, List.foldl_cons, ← replay, ← replay]
    refine ih ?_
    by_cases hkey : key = Parsing.keyOf sep e.1
    · rw [← hkey, edit_self, edit_self, h]
    · rw [edit_of_ne hkey, edit_of_ne hkey, h]

/-- Edits below a path make of the templates below its key what the edits themselves make of
templates with the same names. -/
theorem replay_below {path : List String} (hkey : key ≠ "") {log : EditLog ω}
    (hkeys : ∀ e ∈ log, Parsing.keyOf sep (path ++ e.1) =
      Parsing.nameOf sep key (Parsing.keyOf sep e.1)) :
    ∀ {shelf shelf' : Shelf ω}, (∀ x, shelf (Parsing.nameOf sep key x) = shelf' x) →
      ∀ x, shelf.replay sep root (log.below path) (Parsing.nameOf sep key x) =
        shelf'.replay sep (Parsing.nameOf sep root key) log x := by
  induction log with
  | nil => exact fun h => h
  | cons e log ih =>
    intro shelf shelf' h
    rw [EditLog.below, List.map_cons, replay, replay, List.foldl_cons, List.foldl_cons, ← replay,
      ← replay, hkeys e List.mem_cons_self]
    refine ih (fun e' he' => hkeys e' (List.mem_cons_of_mem _ he')) fun x => ?_
    by_cases hx : x = Parsing.keyOf sep e.1
    · rw [← hx, edit_self, edit_self, h, Parsing.nameOf_nameOf root hkey]
    · rw [edit_of_ne hx, edit_of_ne (fun hname => hx (Parsing.nameOf_injective hkey hname)), h]

/-- The shelf `whole` has the templates of `alone` below a key, where `around` has none, and is
`around` everywhere else.  Below the key there is the key itself, for the outermost template of
`alone`, and for each other key `x` the key with the separator and `x` behind it. -/
structure Grafted (sep key : String) (around alone whole : Shelf ω) : Prop where
  below : ∀ x, whole (Parsing.nameOf sep key x) = alone x
  free : ∀ x, around (Parsing.nameOf sep key x) = none
  other : ∀ k, (∀ x, k ≠ Parsing.nameOf sep key x) → whole k = around k

/-- Edits between others graft what they make themselves, if all of them are made to templates below
the key, and the others are not. -/
theorem replay_between {path : List String} (hkey : key ≠ "") {outer body later : EditLog ω}
    (houter : ∀ e ∈ outer ++ later, ∀ x, Parsing.keyOf sep e.1 ≠ Parsing.nameOf sep key x)
    (hbody : ∀ e ∈ body, Parsing.keyOf sep (path ++ e.1) =
      Parsing.nameOf sep key (Parsing.keyOf sep e.1))
    {shelf : Shelf ω} (hempty : ∀ k, shelf k = none) :
    Shelf.Grafted sep key (shelf.replay sep root (outer ++ later))
      (shelf.replay sep (Parsing.nameOf sep root key) body)
      (shelf.replay sep root (outer ++ body.below path ++ later)) := by
  have hfirst : ∀ x, shelf.replay sep root outer (Parsing.nameOf sep key x) = shelf x := by
    intro x
    rw [replay_of_ne fun e he => houter e (List.mem_append_left _ he) x, hempty, hempty]
  have hlast : ∀ (shelf : Shelf ω) x, shelf.replay sep root later (Parsing.nameOf sep key x) =
      shelf (Parsing.nameOf sep key x) := by
    intro shelf x
    exact replay_of_ne (fun e he => houter e (List.mem_append_right _ he) x) shelf
  refine ⟨fun x => ?_, fun x => ?_, fun other hother => ?_⟩
  · rw [replay_append, replay_append, hlast]
    exact replay_below hkey hbody hfirst x
  · rw [replay_append, hlast, hfirst, hempty]
  · rw [replay_append, replay_append, replay_append]
    refine replay_congr later (replay_of_ne (fun e he => ?_) _)
    obtain ⟨e', he', rfl⟩ := List.mem_map.1 he
    rw [hbody e' he']
    exact (hother _).symm

end Shelf

/-! ### Lines below a path -/

namespace Markup

variable {m : Markup}

/-- A line that does not fail where a path is open does not fail below another path. -/
theorem Line.failure?_below {what : Markup.Line} {path : List String} {number : Nat}
    (h : (what.failure? m path number : Option (Failure ω)) = none) (outer : List String)
    (number' : Nat) :
    (what.failure? m (outer ++ path) number' : Option (Failure ω)) = none ∧
      what.pathAfter (outer ++ path) = outer ++ what.pathAfter path := by
  cases what with
  | start lead name =>
    rcases lead with f | lead
    · cases h
    · rcases name with f | (_ | name)
      · cases h
      · cases h
      · by_cases hname : Text.occurs m.pathSep.toList name.toList = true
        · rw [Line.failure?, if_pos hname] at h
          cases h
        · rw [Line.failure?, if_neg hname]
          exact ⟨rfl, List.append_assoc _ _ _⟩
  | finish name trail =>
    rcases name with f | name
    · cases h
    · by_cases hlast : (path.getLast?.isNone || path.getLast? != name) = true
      · cases trail <;> rw [Line.failure?, if_pos hlast] at h <;> cases h
      · have hne : path ≠ [] := by
          rintro rfl
          exact hlast rfl
        have hsame : (outer ++ path).getLast? = path.getLast? :=
          List.getLast?_append_of_ne_nil outer hne
        rcases trail with f | trail
        · rw [Line.failure?, if_neg hlast] at h
          cases h
        · rw [Line.failure?, hsame, if_neg hlast]
          exact ⟨rfl, List.dropLast_append_of_ne_nil hne⟩
  | block lead name trail =>
    rcases lead with f | lead
    · cases h
    · rcases name with f | name
      · cases h
      · exact ⟨h, rfl⟩
  | plain text =>
    rw [Line.failure?, Option.map_eq_none_iff] at h
    rw [Line.failure?, h]
    exact ⟨rfl, rfl⟩

/-- Lines that do not fail do not fail below a path; there they make their edits below the path. -/
theorem editLog_below {whats : List Markup.Line} : ∀ {path : List String} {number : Nat},
    (m.firstFailure? path number whats : Option (Failure ω)) = none →
    ∀ (outer : List String) (number' : Nat) (pending : String),
      (m.firstFailure? (outer ++ path) number' whats : Option (Failure ω)) = none ∧
      openPath (outer ++ path) whats = outer ++ openPath path whats ∧
      (m.editLog (outer ++ path) pending whats : EditLog ω) =
        (m.editLog path pending whats).below outer := by
  induction whats with
  | nil => exact fun _ outer number' pending => ⟨rfl, rfl, rfl⟩
  | cons what rest ih =>
    intro path number h outer number' pending
    rw [firstFailure?_cons, Option.or_eq_none_iff] at h
    obtain ⟨hwhat, hrest⟩ := h
    obtain ⟨hbelow, hpath⟩ := Line.failure?_below hwhat outer number'
    obtain ⟨hrest', hopen, hlog⟩ := ih hrest outer (number' + 1) (what.breakAfter m)
    rw [firstFailure?_cons, hbelow, Option.none_or, openPath_cons, openPath_cons, editLog_cons,
      editLog_cons, hpath]
    refine ⟨hrest', hopen, ?_⟩
    rw [hlog, EditLog.below, EditLog.below, List.map_append, List.map_map]
    rfl

/-! ### Opened paths -/

/-- The paths that lines open. -/
def Opened (path : List String) (whats : List Markup.Line) (q : List String) : Prop :=
  ∃ before lead name after, whats = before ++ .start lead (.ok (some name)) :: after ∧
    q = openPath path before ++ [name]

theorem Opened.cons {path q : List String} {what : Markup.Line} {rest : List Markup.Line}
    (h : Opened (what.pathAfter path) rest q) : Opened path (what :: rest) q := by
  obtain ⟨before, lead, name, after, rfl, rfl⟩ := h
  exact ⟨what :: before, lead, name, after, rfl, rfl⟩

/-- What holds of the open path, and of the paths around and behind it as far as they are opened,
holds of all paths that edits are made to. -/
theorem editLog_paths {Holds : List String → Prop} (hdrop : ∀ q, Holds q → Holds q.dropLast)
    {whats : List Markup.Line} : ∀ {path : List String} (pending : String), Holds path →
      (∀ q n, Holds q → Opened path whats (q ++ [n]) → Holds (q ++ [n])) →
      (∀ e ∈ (m.editLog path pending whats : EditLog ω), Holds e.1) ∧
        Holds (openPath path whats) := by
  induction whats with
  | nil => exact fun pending hpath _ => ⟨nofun, hpath⟩
  | cons what rest ih =>
    intro path pending hpath hopened
    have hnext : Holds (what.pathAfter path) := by
      unfold Line.pathAfter
      split
      · next lead name => exact hopened path name hpath ⟨[], lead, name, rest, rfl, rfl⟩
      · exact hdrop path hpath
      · exact hpath
    obtain ⟨hlog, hopen⟩ := ih (what.breakAfter m) hnext fun q n hq h => hopened q n hq h.cons
    refine ⟨fun e he => ?_, hopen⟩
    rw [editLog_cons, List.mem_append, List.mem_map] at he
    rcases he with ⟨es, -, rfl⟩ | he
    · exact hpath
    · exact hlog e he

theorem Opened.exists_start {path q : List String} {n : String} {whats : List Markup.Line}
    (h : Opened path whats (q ++ [n])) : ∃ lead, .start lead (.ok (some n)) ∈ whats := by
  obtain ⟨before, lead, name, after, rfl, hq⟩ := h
  obtain ⟨-, hname⟩ := List.append_inj' hq rfl
  cases hname
  exact ⟨lead, by simp⟩

/-- The names of start lines that do not fail do not contain the separator. -/
theorem occurs_eq_false_of_start {whats : List Markup.Line} {path : List String} {number : Nat}
    (h : (m.firstFailure? path number whats : Option (Failure ω)) = none)
    {lead : Except Fault Bool} {name : String} (hmem : .start lead (.ok (some name)) ∈ whats) :
    Text.occurs m.pathSep.toList name.toList = false := by
  obtain ⟨before, after, hwhats⟩ := List.append_of_mem hmem
  have hnone := firstFailure?_eq_none_iff.1 h before _ after hwhats
  rw [← Bool.not_eq_true]
  intro hname
  cases lead with
  | error f => cases hnone
  | ok lead =>
    rw [Line.failure?, if_pos hname] at hnone
    cases hnone

/-! ### Bodies between a start line and its end line -/

section Between

variable {P B Q : List Markup.Line} {lead trail : Bool} {k : String}

/-- Lines with a body do not fail if neither the body nor the lines around it do. -/
theorem firstFailure?_between
    (hbody : (m.firstFailure? [] 1 B : Option (Failure ω)) = none) (hopen : openPath [] B = [])
    (h : (m.firstFailure? [] 1 (P ++ .start (.ok lead) (.ok (some k)) ::
      .finish (.ok (some k)) (.ok trail) :: Q) : Option (Failure ω)) = none) :
    (m.firstFailure? [] 1 (P ++ .start (.ok lead) (.ok (some k)) ::
      (B ++ .finish (.ok (some k)) (.ok trail) :: Q)) : Option (Failure ω)) = none := by
  rw [firstFailure?_append, Option.or_eq_none_iff, firstFailure?_cons, Option.or_eq_none_iff,
    firstFailure?_cons, Option.or_eq_none_iff] at h
  obtain ⟨hP, hstart, hfinish, hQ⟩ := h
  obtain ⟨hB, hpath, -⟩ := editLog_below hbody (openPath [] P ++ [k]) (1 + P.length + 1) ""
  rw [List.append_nil] at hB hpath
  rw [hopen, List.append_nil] at hpath
  rw [firstFailure?_append, hP, Option.none_or, firstFailure?_cons, hstart, Option.none_or,
    Line.pathAfter, firstFailure?_append, hB, Option.none_or, hpath, firstFailure?_cons,
    Option.or_eq_none_iff]
  -- behind the body the lines have other numbers
  exact ⟨(Line.failure?_below hfinish [] _).1, (editLog_below hQ [] _ "").1⟩

theorem openPath_between (hbody : (m.firstFailure? [] 1 B : Option (Failure ω)) = none)
    (hopen : openPath [] B = []) :
    openPath [] (P ++ .start (.ok lead) (.ok (some k)) ::
      (B ++ .finish (.ok (some k)) (.ok trail) :: Q)) =
        openPath [] (P ++ .start (.ok lead) (.ok (some k)) ::
          .finish (.ok (some k)) (.ok trail) :: Q) := by
  obtain ⟨-, hpath, -⟩ := editLog_below hbody (openPath [] P ++ [k]) 1 ""
  rw [List.append_nil, hopen, List.append_nil] at hpath
  rw [openPath_append, openPath_cons, Line.pathAfter, openPath_append, hpath, openPath_append]
  rfl

/-- The body makes its own edits below its path, between those of the lines around it. -/
theorem editLog_between (hbody : (m.firstFailure? [] 1 B : Option (Failure ω)) = none)
    (hopen : openPath [] B = []) :
    (m.editLog [] "" (P ++ .start (.ok lead) (.ok (some k)) ::
      (B ++ .finish (.ok (some k)) (.ok trail) :: Q)) : EditLog ω) =
      m.editLog [] "" (P ++ [.start (.ok lead) (.ok (some k))]) ++
        (m.editLog [] "" B).below (openPath [] P ++ [k]) ++
          m.editLog (openPath [] P) (Parsing.breakAfter m trail) Q := by
  obtain ⟨-, hpath, hlog⟩ := editLog_below hbody (openPath [] P ++ [k]) 1 ""
  rw [List.append_nil] at hpath hlog
  rw [hopen, List.append_nil] at hpath
  have hstart : openPath [] (P ++ [.start (.ok lead) (.ok (some k))]) = openPath [] P ++ [k] := by
    rw [openPath_append]
    rfl
  -- no break is pending at the start of the body, and that at its end is not kept
  have hpending : m.openBreak "" (P ++ [.start (.ok lead) (.ok (some k))]) = "" := by
    rw [openBreak, List.foldl_append]
    rfl
  have hfinish : ∀ pending, (m.editLog (openPath [] P ++ [k]) pending
      (.finish (.ok (some k)) (.ok trail) :: Q) : EditLog ω) =
        m.editLog (openPath [] P) (Parsing.breakAfter m trail) Q := by
    intro pending
    rw [editLog_cons, Line.pathAfter, List.dropLast_concat]
    rfl
  rw [List.append_cons, editLog_append m (P ++ [_]), hstart, hpending, editLog_append m B, hpath,
    hfinish, hlog, List.append_assoc]

/-- If no other line opens the key of the sub-template, the lines around the body open no path below
it, and make no edits there. -/
theorem editLog_around (hstart : ∀ lead' n, .start lead' (.ok (some n)) ∈
      P ++ .start (.ok lead) (.ok (some k)) :: .finish (.ok (some k)) (.ok trail) :: Q →
      n ≠ "" ∧ Text.occurs m.pathSep.toList n.toList = false)
    (hother : ∀ q, Opened [] P q ∨ Opened (openPath [] P) Q q →
      Parsing.keyOf m.pathSep q ≠ Parsing.keyOf m.pathSep (openPath [] P ++ [k]))
    (pending : String) :
    Parsing.WellNamed m.pathSep (openPath [] P ++ [k]) ∧
    ∀ e ∈ (m.editLog [] "" (P ++ [.start (.ok lead) (.ok (some k))]) ++
        m.editLog (openPath [] P) pending Q : EditLog ω),
      Parsing.WellNamed m.pathSep e.1 ∧ ¬ openPath [] P ++ [k] <+: e.1 := by
  let Holds (q : List String) : Prop :=
    Parsing.WellNamed m.pathSep q ∧ ¬ openPath [] P ++ [k] <+: q
  have hdrop : ∀ q, Holds q → Holds q.dropLast := by
    intro q hq
    exact ⟨hq.1.dropLast, fun hstarts => hq.2 (hstarts.trans (List.dropLast_prefix q))⟩
  have hconcat : ∀ q n, Holds q →
      Parsing.keyOf m.pathSep (q ++ [n]) ≠ Parsing.keyOf m.pathSep (openPath [] P ++ [k]) →
      n ≠ "" ∧ Text.occurs m.pathSep.toList n.toList = false → Holds (q ++ [n]) := by
    intro q n hq hkey hn
    refine ⟨hq.1.concat hn, fun hstarts => ?_⟩
    rcases List.prefix_concat_iff.1 hstarts with hsame | hstarts
    · exact hkey (by rw [hsame])
    · exact hq.2 hstarts
  have hnil : Holds [] := ⟨nofun, by simp⟩
  obtain ⟨hbefore, hpath⟩ := editLog_paths (ω := ω) (m := m) hdrop "" hnil fun q n hq hopened => by
    obtain ⟨lead', hmem⟩ := hopened.exists_start
    exact hconcat q n hq (hother _ (.inl hopened)) (hstart lead' n (List.mem_append_left _ hmem))
  obtain ⟨hafter, -⟩ := editLog_paths (ω := ω) (m := m) hdrop pending hpath fun q n hq hopened => by
    obtain ⟨lead', hmem⟩ := hopened.exists_start
    exact hconcat q n hq (hother _ (.inr hopened)) (hstart lead' n (by simp [hmem]))
  refine ⟨hpath.1.concat (hstart (.ok lead) k (by simp)), fun e he => ?_⟩
  rw [List.mem_append, editLog_append, List.mem_append] at he
  rcases he with (he | he) | he
  · exact hbefore e he
  -- the break before the body goes to the template around it
  · rw [editLog_cons, editLog, List.append_nil] at he
    obtain ⟨es, -, rfl⟩ := List.mem_map.1 he
    exact hpath
  · exact hafter e he

/-- What the edits of lines with a body make of an empty shelf. -/
theorem replay_between (hsep : m.pathSep ≠ "") (hborder : Text.Borderless m.pathSep.toList)
    (hbody : (m.firstFailure? [] 1 B : Option (Failure ω)) = none) (hopen : openPath [] B = [])
    (hbodyStart : ∀ lead' n, .start lead' (.ok (some n)) ∈ B →
      n ≠ "" ∧ Text.occurs m.pathSep.toList n.toList = false)
    (hstart : ∀ lead' n, .start lead' (.ok (some n)) ∈
      P ++ .start (.ok lead) (.ok (some k)) :: .finish (.ok (some k)) (.ok trail) :: Q →
      n ≠ "" ∧ Text.occurs m.pathSep.toList n.toList = false)
    (hother : ∀ q, Opened [] P q ∨ Opened (openPath [] P) Q q →
      Parsing.keyOf m.pathSep q ≠ Parsing.keyOf m.pathSep (openPath [] P ++ [k]))
    (root : String) {shelf : Shelf ω} (hempty : ∀ k, shelf k = none) :
    let key := Parsing.keyOf m.pathSep (openPath [] P ++ [k])
    let around := m.editLog [] "" (P ++ .start (.ok lead) (.ok (some k)) ::
      .finish (.ok (some k)) (.ok trail) :: Q)
    let whole := m.editLog [] "" (P ++ .start (.ok lead) (.ok (some k)) ::
      (B ++ .finish (.ok (some k)) (.ok trail) :: Q))
    Shelf.Grafted m.pathSep key (shelf.replay m.pathSep root around)
      (shelf.replay m.pathSep (Parsing.nameOf m.pathSep root key) (m.editLog [] "" B))
      (shelf.replay m.pathSep root whole) := by
  intro key around whole
  obtain ⟨hpath, houter⟩ := editLog_around (ω := ω) hstart hother (Parsing.breakAfter m trail)
  have hne : openPath [] P ++ [k] ≠ [] := by simp
  have hkey : key ≠ "" := Parsing.keyOf_ne_empty hsep hne hpath.ne_empty
  -- the paths of the body have names, too
  obtain ⟨hbelow, -⟩ := editLog_paths (ω := ω) (m := m) (fun q hq => Parsing.WellNamed.dropLast hq)
    "" (show Parsing.WellNamed m.pathSep [] from nofun) fun q n hq hopened => by
      obtain ⟨lead', hmem⟩ := hopened.exists_start
      exact hq.concat (hbodyStart lead' n hmem)
  have hkeys : ∀ e ∈ (m.editLog [] "" B : EditLog ω), Parsing.keyOf m.pathSep
      (openPath [] P ++ [k] ++ e.1) = Parsing.nameOf m.pathSep key (Parsing.keyOf m.pathSep e.1) :=
    fun e he => Parsing.keyOf_append hsep hne hpath.ne_empty (hbelow e he).ne_empty
  have hapart : ∀ e ∈ (m.editLog [] "" (P ++ [.start (.ok lead) (.ok (some k))]) ++
      m.editLog (openPath [] P) (Parsing.breakAfter m trail) Q : EditLog ω),
      ∀ x, Parsing.keyOf m.pathSep e.1 ≠ Parsing.nameOf m.pathSep key x := by
    intro e he
    obtain ⟨hnamed, hapart⟩ := houter e he
    exact Parsing.keyOf_ne_nameOf hborder hsep hpath hnamed hne hapart
  have haround : around = m.editLog [] "" (P ++ [.start (.ok lead) (.ok (some k))]) ++
      m.editLog (openPath [] P) (Parsing.breakAfter m trail) Q := by
    have hlog := @editLog_between ω m P [] Q lead trail k rfl rfl
    rwa [editLog, EditLog.below, List.map_nil, List.append_nil, List.nil_append] at hlog
  rw [haround, show whole = _ from editLog_between hbody hopen]
  exact Shelf.replay_between hkey hapart hkeys hempty

end Between

end Markup

/-! ### Sources -/

/-- **Nested bodies.**  Take a markup whose separator does not overlap itself, and in which no start
line has an empty name.  If a body is parsed without an error as a source of its own, and the lines
around it are without it, they are with it.  If no other line opens the key of the sub-template,
then below this key are the templates of the body, and the lines around it alone have none there;
all other templates are those of the lines around it. -/
theorem Catalog.parse_nested {m : Markup} (hm : m.fault? = none)
    (hborder : Text.Borderless m.pathSep.toList)
    (hnames : ∀ text lead, m.classify text ≠ .start lead (.ok (some "")))
    {pre body post : List String} {s e k : String} {lead trail : Bool}
    (hs : m.classify s = .start (.ok lead) (.ok (some k)))
    (he : m.classify e = .finish (.ok (some k)) (.ok trail)) (root : String) :
    let p := Markup.openPath [] (pre.map m.classify)
    let key := Parsing.keyOf m.pathSep (p ++ [k])
    let alone := Catalog.parse ([] : Catalog ω) m (Parsing.nameOf m.pathSep root key) ⟨body, none⟩
    let around := Catalog.parse ([] : Catalog ω) m root ⟨pre ++ s :: e :: post, none⟩
    let whole := Catalog.parse ([] : Catalog ω) m root ⟨pre ++ s :: (body ++ e :: post), none⟩
    alone.2 = none → around.2 = none →
    (∀ q, Markup.Opened [] (pre.map m.classify) q ∨ Markup.Opened p (post.map m.classify) q →
      Parsing.keyOf m.pathSep q ≠ key) →
    whole.2 = none ∧ Shelf.Grafted m.pathSep key around.1.get? alone.1.get? whole.1.get? := by
  intro p key alone around whole halone haround hother
  have hsep := Markup.pathSep_ne_empty hm
  have hgetAlone := (parse_course ⟨body, none⟩ rfl Shelf.named_nil).2 halone
  have hgetAround := (parse_course ⟨pre ++ s :: e :: post, none⟩ rfl Shelf.named_nil).2 haround
  obtain ⟨hbody, hopen⟩ := parse_nil_eq_none_iff.1 halone
  obtain ⟨haroundNone, haroundPath⟩ := parse_nil_eq_none_iff.1 haround
  have hstart : ∀ lines : List String,
      (m.firstFailure? [] 1 (lines.map m.classify) : Option (Failure ω)) = none →
      ∀ lead' n, .start lead' (.ok (some n)) ∈ lines.map m.classify →
        n ≠ "" ∧ Text.occurs m.pathSep.toList n.toList = false := by
    intro lines hnone lead' n hmem
    refine ⟨?_, Markup.occurs_eq_false_of_start hnone hmem⟩
    rintro rfl
    obtain ⟨text, -, htext⟩ := List.mem_map.1 hmem
    exact hnames text lead' htext
  have haroundStart := hstart _ haroundNone
  have haroundWhats : (pre ++ s :: e :: post).map m.classify = pre.map m.classify ++
      .start (.ok lead) (.ok (some k)) ::
        .finish (.ok (some k)) (.ok trail) :: post.map m.classify := by
    simp only [List.map_append, List.map_cons, hs, he]
  rw [haroundWhats] at haroundNone haroundPath haroundStart hgetAround
  have hwholeWhats : (pre ++ s :: (body ++ e :: post)).map m.classify = pre.map m.classify ++
      .start (.ok lead) (.ok (some k)) ::
        (body.map m.classify ++ .finish (.ok (some k)) (.ok trail) :: post.map m.classify) := by
    simp only [List.map_append, List.map_cons, hs, he]
  have hwhole : whole.2 = none := by
    refine parse_nil_eq_none_iff.2 ?_
    rw [hwholeWhats]
    exact ⟨Markup.firstFailure?_between hbody hopen haroundNone,
      (Markup.openPath_between hbody hopen).trans haroundPath⟩
  have hgetWhole := (parse_course ⟨pre ++ s :: (body ++ e :: post), none⟩ rfl Shelf.named_nil).2
    hwhole
  rw [hwholeWhats] at hgetWhole
  rw [hgetWhole, hgetAlone, hgetAround]
  exact ⟨hwhole, Markup.replay_between hsep hborder hbody hopen (hstart body hbody) haroundStart
    hother root get?_nil⟩

/-- **Nested bodies in the usual markup.**  What stands between a start line and its end line is
parsed as if it were a source of its own, and does not change any template outside. -/
theorem Catalog.parse_nested_standard {m : Markup}
    (hm : Markup.comment Pattern.ofText .standard = .ok m) {pre body post : List String}
    {s e k : String} {lead trail : Bool}
    (hs : m.classify s = .start (.ok lead) (.ok (some k)))
    (he : m.classify e = .finish (.ok (some k)) (.ok trail)) (root : String) :
    let p := Markup.openPath [] (pre.map m.classify)
    let key := Parsing.keyOf m.pathSep (p ++ [k])
    let alone := Catalog.parse ([] : Catalog ω) m (Parsing.nameOf m.pathSep root key) ⟨body, none⟩
    let around := Catalog.parse ([] : Catalog ω) m root ⟨pre ++ s :: e :: post, none⟩
    let whole := Catalog.parse ([] : Catalog ω) m root ⟨pre ++ s :: (body ++ e :: post), none⟩
    alone.2 = none → around.2 = none →
    (∀ q, Markup.Opened [] (pre.map m.classify) q ∨ Markup.Opened p (post.map m.classify) q →
      Parsing.keyOf m.pathSep q ≠ key) →
    whole.2 = none ∧ Shelf.Grafted m.pathSep key around.1.get? alone.1.get? whole.1.get? := by
  obtain rfl : Markup.standard = m := by
    rw [Markup.comment_standard] at hm
    exact Except.ok.inj hm
  exact parse_nested Markup.fault?_standard (Text.borderless_singleton '/')
    Markup.classify_standard_ne hs he root

deriving instance DecidableEq for Markup.Line

/-- The text of the row is the template `row`, and the text around it is what it is without the
row. -/
theorem Catalog.parse_nested_standard_row :
    let alone := Catalog.parse ([] : Catalog Empty) .standard "page/row" ⟨["b `x`"], none⟩
    let around := Catalog.parse ([] : Catalog Empty) .standard "page"
      ⟨["a", "<!-- >>> row >>> -->", "<!-- <<< row <<< -->", "c"], none⟩
    let whole := Catalog.parse ([] : Catalog Empty) .standard "page"
      ⟨["a", "<!-- >>> row >>> -->", "b `x`", "<!-- <<< row <<< -->", "c"], none⟩
    whole.2 = none ∧ Shelf.Grafted "/" "row" around.1.get? alone.1.get? whole.1.get? := by
  intro alone around whole
  have hpre : ["a"].map Markup.standard.classify = [.plain "a"] := by decide +kernel
  have hs : Markup.standard.classify "<!-- >>> row >>> -->" =
      .start (.ok true) (.ok (some "row")) := by decide +kernel
  have hbody : ["b `x`"].map Markup.standard.classify = [.plain "b `x`"] := by decide +kernel
  have he : Markup.standard.classify "<!-- <<< row <<< -->" =
      .finish (.ok (some "row")) (.ok true) := by decide +kernel
  have hpost : ["c"].map Markup.standard.classify = [.plain "c"] := by decide +kernel
  have halone : alone.2 = none := by
    refine parse_nil_eq_none_iff.2 ?_
    rw [hbody]
    exact ⟨rfl, rfl⟩
  have haround : around.2 = none := by
    refine parse_nil_eq_none_iff.2 ?_
    rw [List.map_cons, List.map_cons, List.map_cons, hs, he, hpost,
      (List.cons.inj hpre).1]
    exact ⟨rfl, rfl⟩
  have hother : ∀ (path : List String) (text : String) q,
      ¬ Markup.Opened path [.plain text] q := by
    rintro path text q ⟨before, lead, name, after, hwhats, -⟩
    cases before <;> simp at hwhats
  have hnested := @Catalog.parse_nested_standard Empty .standard Markup.comment_standard ["a"]
    ["b `x`"] ["c"] _ _ "row" true true hs he "page"
  have hkey : Parsing.keyOf Markup.standard.pathSep
      (Markup.openPath [] (["a"].map Markup.standard.classify) ++ ["row"]) = "row" := by
    rw [hpre]
    decide
  have hname : Parsing.nameOf Markup.standard.pathSep "page" "row" = "page/row" := by decide
  dsimp only at hnested
  rw [hkey, hname, hpre, hpost] at hnested
  refine hnested halone haround fun q hq => ?_
  rcases hq with hq | hq
  · exact absurd hq (hother _ _ q)
  · exact absurd hq (hother _ _ q)

end Stencil
