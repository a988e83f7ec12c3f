import Stencil.Markup.Config
import Stencil.Proofs.Source.Continued

/-!
# Markups that no source upsets

A source that cannot be parsed has an error in it, and is told so.  But a line may also upset the
markup: a group that is looked at is not in the pattern, the name of a sub-template takes no part in
the match, or a placeholder has an empty name.  Then the parse ends in a fault.  Nothing of this is
seen when a markup is made from a configuration, so it depends on the lines that its patterns match
whether a source can upset it.

## Main definitions

* `IsLine` — what can be a line of a text.
* `Markup.Safe` — the markups that no source upsets.
* `Catalog.configuredFault?` — how a text upsets the markup of a configuration.

## Main results

* `Lines.exists_ofText` — such lines are the lines of some text.
* `Markup.safe_iff` — in a safe markup, and in no other, all that can stop a parse are errors of the
  source.
* `Markup.Legible.safe`, `Markup.safe_standard` — markups whose lines can all be read are safe, such
  as the usual one.
* `Catalog.not_forall_parse_configured` — a configuration may describe a markup that is not.
-/

namespace Stencil

variable {ω : Type}

/-! ### The lines of a text -/

/-- The text can be a line of a text: it has no line feed in it. -/
def IsLine (text : String) : Prop := '\n' ∉ text.toList

/-- A character that is no line feed goes to the front of the first line. -/
theorem splitLines_cons {c : Char} (hc : c ≠ '\n') (s : List Char) :
    splitLines (c :: s) = (c :: (splitLines s).headD []) :: (splitLines s).tail := by
  rw [splitLines]
  · cases splitLines s <;> rfl
  · exact hc

theorem not_mem_of_mem_splitLines (s : List Char) : ∀ l ∈ splitLines s, '\n' ∉ l := by
  induction s with
  | nil => exact nofun
  | cons c s ih =>
    intro l hl
    by_cases hc : c = '\n'
    · subst hc
      rcases List.mem_cons.1 hl with rfl | hl
      · exact List.not_mem_nil
      · exact ih l hl
    · rw [splitLines_cons hc] at hl
      rcases List.mem_cons.1 hl with rfl | hl
      · have hfirst : '\n' ∉ (splitLines s).headD [] := by
          cases hlines : splitLines s with
          | nil => exact List.not_mem_nil
          | cons line rest =>
            rw [hlines] at ih
            exact ih line List.mem_cons_self
        exact List.not_mem_cons_of_ne_of_not_mem (Ne.symm hc) hfirst
      · exact ih l (List.mem_of_mem_tail hl)

/-- A line feed ends the first line. -/
theorem splitLines_line {line : List Char} (h : '\n' ∉ line) (rest : List Char) :
    splitLines (line ++ '\n' :: rest) = line :: splitLines rest := by
  induction line with
  | nil => rfl
  | cons c line ih =>
    rw [List.mem_cons, not_or] at h
    rw [List.cons_append, splitLines_cons (Ne.symm h.1), ih h.2, List.headD_cons, List.tail_cons]

theorem mem_of_mem_dropFinal {a c : Char} {s : List Char} (h : a ∈ dropFinal c s) : a ∈ s := by
  unfold dropFinal at h
  split at h
  · exact List.mem_of_mem_dropLast h
  · exact h

/-- Of a line that ends in a carriage return this is left out. -/
theorem chomp_concat (line : List Char) : chomp (line ++ ['\r']) = line := by
  simp [chomp, dropFinal]

namespace Lines

theorem isLine_of_mem_ofText {s : List Char} {text : String} (h : text ∈ (ofText s).lines) :
    IsLine text := by
  obtain ⟨l, hl, rfl⟩ := List.mem_map.1 h
  intro hmem
  rw [String.toList_ofList] at hmem
  exact not_mem_of_mem_splitLines s l hl (mem_of_mem_dropFinal (mem_of_mem_dropFinal hmem))

/-- Lines are those of some text: end each with a carriage return and a line feed. -/
theorem exists_ofText {lines : List String} (h : ∀ text ∈ lines, IsLine text) :
    ∃ s, ofText s = ⟨lines, none⟩ := by
  suffices hs : ∃ s, (splitLines s).map (fun l => String.ofList (chomp l)) = lines by
    obtain ⟨s, rfl⟩ := hs
    exact ⟨s, rfl⟩
  induction lines with
  | nil => exact ⟨[], rfl⟩
  | cons text lines ih =>
    obtain ⟨s, hs⟩ := ih fun t ht => h t (List.mem_cons_of_mem _ ht)
    have htext : '\n' ∉ text.toList := h text List.mem_cons_self
    have hline : '\n' ∉ text.toList ++ ['\r'] := by simpa using htext
    refine ⟨text.toList ++ ['\r'] ++ '\n' :: s, ?_⟩
    rw [splitLines_line hline, List.map_cons, hs, chomp_concat, String.ofList_toList]

end Lines

namespace Markup

/-- The markups that no source upsets: names and flags of all start lines and block lines can be
read, so can the names of end lines, and the flag of an end line if a sub-template of its name can
be opened. -/
structure Safe (m : Markup) : Prop where
  /-- A start line has a flag and a name. -/
  start : ∀ text lead name, IsLine text → m.classify text = .start lead name →
    ∃ keep n, lead = .ok keep ∧ name = .ok (some n)
  /-- A block line has flags, and a name that is not empty. -/
  block : ∀ text lead name trail, IsLine text → m.classify text = .block lead name trail →
    ∃ keep n keep', lead = .ok keep ∧ name = .ok (some n) ∧ n ≠ "" ∧ trail = .ok keep'
  /-- Whether an end line has a name can be seen. -/
  finishName : ∀ text name trail, IsLine text → m.classify text = .finish name trail →
    ∃ n, name = .ok n
  /-- An end line has a flag if it can end a sub-template. -/
  finishTrail : ∀ text text' keep n trail, IsLine text → IsLine text' →
    m.classify text = .start (.ok keep) (.ok (some n)) →
    Text.occurs m.pathSep.toList n.toList = false →
    m.classify text' = .finish (.ok (some n)) trail → ∃ keep', trail = .ok keep'

/-! ### Safe markups -/

section Safe

variable {m : Markup} {path : List String} {number : Nat} {e : Failure ω}

/-- What stops a line of a safe markup is an error of the source, if the open sub-template was
opened by some line. -/
theorem Safe.exists_parseError (h : m.Safe) {text : String} (htext : IsLine text)
    (hopened : ∀ n, path.getLast? = some n → Text.occurs m.pathSep.toList n.toList = false ∧
      ∃ text keep, IsLine text ∧ m.classify text = .start (.ok keep) (.ok (some n)))
    (he : (m.classify text).failure? m path number = some e) : ∃ p, e = .parse p := by
  cases hline : m.classify text with
  | start lead name =>
    obtain ⟨keep, n, rfl, rfl⟩ := h.start text lead name htext hline
    rw [hline, Line.failure?] at he
    split at he
    · cases he
      exact ⟨_, rfl⟩
    · cases he
  | finish name trail =>
    obtain ⟨n, rfl⟩ := h.finishName text name trail htext hline
    simp only [hline, Line.failure?] at he
    split at he
    · cases he
      exact ⟨_, rfl⟩
    · next hlast =>
      -- the line has the name of the open sub-template, so its flag can be read
      obtain ⟨last, hsome⟩ : ∃ last, path.getLast? = some last := by
        cases hpath : path.getLast? with
        | none => rw [hpath] at hlast; exact absurd rfl hlast
        | some last => exact ⟨last, rfl⟩
      obtain rfl : some last = n := by
        rw [hsome] at hlast
        simpa using hlast
      obtain ⟨hvalid, text', keep, htext', hstart⟩ := hopened last hsome
      obtain ⟨keep', rfl⟩ :=
        h.finishTrail text' text keep last trail htext' htext hstart hvalid hline
      cases he
  | block lead name trail =>
    obtain ⟨keep, n, keep', rfl, rfl, hne, rfl⟩ := h.block text lead name trail htext hline
    rw [hline, Line.failure?, if_neg (by simpa using hne)] at he
    cases he
  | plain text =>
    rw [hline, Line.failure?] at he
    obtain ⟨rest, -, rfl⟩ := Option.map_eq_some_iff.1 he
    exact ⟨_, rfl⟩

/-- What stops the lines of a source is an error of the source. -/
theorem Safe.firstFailure? (h : m.Safe) {lines : List String} (hlines : ∀ t ∈ lines, IsLine t)
    (he : m.firstFailure? [] 1 (lines.map m.classify) = some e) : ∃ p, e = .parse p := by
  obtain ⟨before, what, after, hwhats, hnone, hwhat⟩ := firstFailure?_eq_some_iff.1 he
  have hread (line : Markup.Line) (hmem : line ∈ before ++ what :: after) :
      ∃ text, IsLine text ∧ m.classify text = line := by
    rw [← hwhats] at hmem
    obtain ⟨text, htext, hline⟩ := List.mem_map.1 hmem
    exact ⟨text, hlines text htext, hline⟩
  obtain ⟨text, htext, rfl⟩ := hread what (by simp)
  refine h.exists_parseError htext (fun n hn => ?_) hwhat
  -- the open sub-template was opened by a line before
  have hne : openPath [] before ≠ [] := by
    intro hnil
    rw [hnil] at hn
    cases hn
  obtain ⟨start, lead, name, rest, hbefore, hpath⟩ := opened_openPath m hne
  rw [hpath, List.getLast?_concat] at hn
  obtain rfl : name = n := Option.some.inj hn
  have hmem : Line.start lead (.ok (some name)) ∈ before := by
    rw [hbefore]
    simp
  obtain ⟨text', htext', hstart⟩ := hread _ (List.mem_append_left _ hmem)
  obtain ⟨keep, -, rfl, -⟩ := h.start text' _ _ htext' hstart
  exact ⟨occurs_eq_false_of_start hnone hmem, text', keep, htext', hstart⟩

end Safe

/-! ### Markups that are not safe -/

section Unsafe

variable {m : Markup}

/-- A markup is safe if neither a single line nor a line behind another one ends in a fault. -/
theorem safe_of_ne_fault
    (hline : ∀ text f, IsLine text →
      (m.classify text).failure? m [] 1 ≠ some (.fault f : Failure ω))
    (hlines : ∀ text text' f, IsLine text → IsLine text' →
      m.firstFailure? [] 1 [m.classify text, m.classify text'] ≠ some (.fault f : Failure ω)) :
    m.Safe := by
  constructor
  · intro text lead name htext hstart
    have hno := fun f => hline text f htext
    rw [hstart] at hno
    rcases lead with f | keep
    · exact absurd rfl (hno f)
    · rcases name with f | (_ | n)
      · exact absurd rfl (hno f)
      · exact absurd rfl (hno .nameWithoutText)
      · exact ⟨keep, n, rfl, rfl⟩
  · intro text lead name trail htext hblock
    have hno := fun f => hline text f htext
    rw [hblock] at hno
    rcases lead with f | keep
    · exact absurd rfl (hno f)
    · rcases name with f | name
      · exact absurd rfl (hno f)
      · by_cases hempty : (name.getD "").isEmpty = true
        · exact absurd (if_pos hempty) (hno .emptyName)
        · rcases trail with f | keep'
          · exact absurd (if_neg hempty) (hno f)
          · rcases name with _ | n
            · exact absurd rfl hempty
            · refine ⟨keep, n, keep', rfl, rfl, ?_, rfl⟩
              rintro rfl
              exact hempty rfl
  · intro text name trail htext hfinish
    have hno := fun f => hline text f htext
    rw [hfinish] at hno
    rcases name with f | n
    · exact absurd rfl (hno f)
    · exact ⟨n, rfl⟩
  · intro text text' keep n trail htext htext' hstart hvalid hfinish
    rcases trail with f | keep'
    · -- the sub-template is opened by the one line and ended by the other
      have hno := hlines text text' f htext htext'
      have hopened : ((Line.start (.ok keep) (.ok (some n))).failure? m [] 1 :
          Option (Failure ω)) = none := by
        rw [Line.failure?, if_neg (by simp [hvalid])]
      rw [hstart, hfinish, firstFailure?_cons, hopened, Option.none_or, firstFailure?_cons] at hno
      exact absurd (by simp [Line.failure?, Line.pathAfter]) hno
    · exact ⟨keep', rfl⟩

end Unsafe

/-- **The markups that no source upsets.**  A markup is safe if, and only if, all that can stop the
parse of a text into an empty catalogue are errors of the source. -/
theorem safe_iff (m : Markup) : m.Safe ↔ ∀ (root : String) (text : List Char),
    let e := (Catalog.parse ([] : Catalog ω) m root (.ofText text)).2
    e = none ∨ ∃ p, e = some (.parse p) := by
  constructor
  · intro h root text e
    have he : e = _ := (Catalog.parse_course ⟨(Lines.ofText text).lines, none⟩ rfl
      Shelf.named_nil).1
    cases hfirst : (m.firstFailure? [] 1 ((Lines.ofText text).lines.map m.classify) :
        Option (Failure ω)) with
    | some failure =>
      obtain ⟨p, rfl⟩ := h.firstFailure? (fun _ => Lines.isLine_of_mem_ofText) hfirst
      rw [hfirst, Option.some_or] at he
      exact .inr ⟨p, he⟩
    | none =>
      rw [hfirst, Option.none_or, Option.map_none, Option.none_or] at he
      split at he
      · exact .inl he
      · exact .inr ⟨_, he⟩
  · intro h
    have hfault (lines : List String) (f : Fault) (hlines : ∀ t ∈ lines, IsLine t) :
        m.firstFailure? [] 1 (lines.map m.classify) ≠ some (.fault f : Failure ω) := by
      intro hfirst
      obtain ⟨text, htext⟩ := Lines.exists_ofText hlines
      have hstop := h "" text
      dsimp only at hstop
      rw [htext, (Catalog.parse_course ⟨lines, none⟩ rfl Shelf.named_nil).1, hfirst,
        Option.some_or] at hstop
      rcases hstop with hnone | ⟨p, hp⟩
      · cases hnone
      · cases hp
    refine safe_of_ne_fault (ω := ω) (fun text f htext hfirst => ?_)
      fun text text' f htext htext' => ?_
    · refine hfault [text] f (by simpa using htext) ?_
      rw [List.map_singleton, firstFailure?_cons, hfirst, Option.some_or]
    · exact hfault [text, text'] f (by simpa using ⟨htext, htext'⟩)

/-- Markups whose lines can all be read are safe. -/
theorem Legible.safe {m : Markup} (h : m.Legible) : m.Safe where
  start text lead name _ hstart := by
    have hline := h.classify text
    rw [hstart] at hline
    cases hline with
    | start keep n => exact ⟨keep, n, rfl, rfl⟩
  block text lead name trail _ hblock := by
    have hline := h.classify text
    rw [hblock] at hline
    cases hline with
    | block keep keep' hne => exact ⟨keep, _, keep', rfl, rfl, hne, rfl⟩
  finishName text name trail _ hfinish := by
    have hline := h.classify text
    rw [hfinish] at hline
    cases hline with
    | finish n keep => exact ⟨some n, rfl⟩
  finishTrail _ text' _ n trail _ _ _ _ hfinish := by
    have hline := h.classify text'
    rw [hfinish] at hline
    cases hline with
    | finish n keep => exact ⟨keep, rfl⟩

/-- No source upsets the usual markup. -/
theorem safe_standard : standard.Safe := legible_standard.safe

end Markup

/-! ### Configurations -/

namespace Catalog

/-- The fault in which the parse of a text ends with the markup of a configuration, if it ends in
one. -/
def configuredFault? (raw : Value) (text : List Char) : Option Fault :=
  match (Markup.ofConfig Pattern.ofText raw : Except (Failure ω) Markup) with
  | .error _ => none
  | .ok m =>
    match (parse ([] : Catalog ω) m "" (.ofText text)).2 with
    | some (.fault f) => some f
    | _ => none

theorem exists_of_configuredFault? {raw : Value} {text : List Char} {f : Fault}
    (h : configuredFault? (ω := ω) raw text = some f) :
    ∃ m, (Markup.ofConfig Pattern.ofText raw : Except (Failure ω) Markup) = .ok m ∧
      (parse ([] : Catalog ω) m "" (.ofText text)).2 = some (.fault f) := by
  unfold configuredFault? at h
  split at h
  · cases h
  · next m hm =>
    split at h
    · next f' hf' =>
      cases h
      exact ⟨m, hm, hf'⟩
    · cases h

/-- A configuration may describe a markup that a text upsets: its placeholders may have no name. -/
theorem not_forall_parse_configured : ¬ ∀ (raw : Value) (m : Markup),
    (Markup.ofConfig Pattern.ofText raw : Except (Failure Empty) Markup) = .ok m →
    ∀ (root : String) (text : List Char),
      let e := (parse ([] : Catalog Empty) m root (.ofText text)).2
      e = none ∨ ∃ p, e = some (.parse p) := by
  intro h
  have hfault : configuredFault? (ω := Empty)
      (.map [(.str "comment", .map [(.str "name_pattern", .str "[a-z]*")])])
      "<!-- >>>  <<< -->".toList = some .emptyName := by decide +kernel
  obtain ⟨m, hm, he⟩ := exists_of_configuredFault? hfault
  rcases h _ m hm "" "<!-- >>>  <<< -->".toList with hnone | ⟨p, hp⟩
  · rw [he] at hnone
    cases hnone
  · rw [he] at hp
    cases hp

end Catalog

end Stencil
