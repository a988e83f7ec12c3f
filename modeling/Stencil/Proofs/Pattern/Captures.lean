import Stencil.Pattern.Match
import Stencil.Proofs.Template.SlotTable

/-!
# What groups hold

Whether a group takes part in every match of a pattern, and how long at least its text is, can often
be read off the pattern.  A match takes a part of the pattern from one place in the text to another
one behind it, and what the groups in it remember on the way lies between the two.

## Main definitions

* `Pattern.Node.width` — how many characters a part matches at least.
* `Pattern.Node.sure` — whether a part always sets a group.
* `Pattern.Node.wide` — whether all that a group in a part matches has some length.
* `Pattern.holds` — whether a group takes part in all matches with a text of some length.

## Main results

* `Pattern.Node.run_passes` — a match of a part is a way through the text.
* `Pattern.group?_of_holds` — what the group of a match holds.
-/

namespace Stencil.Pattern

/-! ### What can be read off a pattern -/

namespace Node

/-- How many characters a part matches at least; of the rounds of a repetition just the first one
counts. -/
def width : Node → Nat
  | .any | .set _ _ => 1
  | .group _ inner | .bracketed inner | .settled inner => inner.width
  | .seq first second => first.width + second.width
  | .choice first second => min first.width second.width
  | .loop least _ _ inner => if least = 0 then 0 else inner.width
  | .empty | .anchor _ | .again _ => 0

/-- Whether a group is set in every match of a part. -/
def sure (g : Nat) : Node → Bool
  | .group i inner => i == g || inner.sure g
  | .bracketed inner | .settled inner => inner.sure g
  | .seq first second => first.sure g || second.sure g
  | .choice first second => first.sure g && second.sure g
  | .loop least _ _ inner => least != 0 && inner.sure g
  | .empty | .any | .set _ _ | .anchor _ | .again _ => false

/-- Whether all that a group in a part matches has `w` characters at least. -/
def wide (g w : Nat) : Node → Bool
  | .group i inner => (i != g || decide (w ≤ inner.width)) && inner.wide g w
  | .bracketed inner | .settled inner | .loop _ _ _ inner => inner.wide g w
  | .seq first second | .choice first second => first.wide g w && second.wide g w
  | .empty | .any | .set _ _ | .anchor _ | .again _ => true

end Node

/-- Whether a group takes part in every match, and holds a text of `w` characters at least. -/
def holds (pattern : Pattern) (ref : GroupRef) (w : Nat) : Bool :=
  match pattern.groupNumber? ref with
  | some g => g != 0 && pattern.root.sure g && pattern.root.wide g w
  | none => false

/-! ### Ways through a text -/

/-- A place that is in a text. -/
structure Place.Within (text : List Char) (p : Place) : Prop where
  /-- No more characters are before it than the text has. -/
  le : p.index ≤ text.length
  /-- The characters after it are the rest of the text. -/
  rest : p.rest = text.drop p.index

theorem Place.Within.step {text : List Char} {p : Place} (h : p.Within text) {c : Char}
    {rest : List Char} (hp : p.rest = c :: rest) : (p.step c rest).Within text := by
  have hdrop : text.drop p.index = c :: rest := h.rest.symm.trans hp
  have hlen := congrArg List.length hdrop
  rw [List.length_drop, List.length_cons] at hlen
  refine ⟨?_, ?_⟩
  · simp only [Place.step]
    omega
  · rw [Place.step, ← List.drop_drop, hdrop]
    rfl

/-- A way from one place in a text to another one. -/
structure Way (text : List Char) (g w : Nat) (p q : Place) (new : Captures) : Prop where
  /-- It stays in the text. -/
  within : q.Within text
  /-- It does not go back. -/
  le : p.index ≤ q.index
  /-- What the group remembers on it has `w` characters at least. -/
  wide : ∀ start stop, (g, start, stop) ∈ new → start + w ≤ stop ∧ stop ≤ text.length

namespace Way

variable {text : List Char} {g w : Nat} {p q r : Place} {new new' : Captures}

theorem refl (h : p.Within text) : Way text g w p p [] := ⟨h, Nat.le_refl _, nofun⟩

theorem trans (h : Way text g w p q new) (h' : Way text g w q r new') :
    Way text g w p r (new' ++ new) where
  within := h'.within
  le := Nat.le_trans h.le h'.le
  wide start stop hmem := (List.mem_append.1 hmem).elim (h'.wide start stop) (h.wide start stop)

end Way

/-- A part that is matched by ways through the text, each with `least` characters at least and, if
it is `sure`, with the group set. -/
structure Passes (text : List Char) (g w least : Nat) (sure : Bool) (body : Next → Next) :
    Prop where
  /-- The way of a match. -/
  way : ∀ {k : Next} {p : Place} {caps : Captures} {r : Place × Captures}, p.Within text →
    body k p caps = some r → ∃ q new, k q (new ++ caps) = some r ∧ Way text g w p q new ∧
      p.index + least ≤ q.index ∧ (sure = true → ∃ start stop, (g, start, stop) ∈ new)

namespace Passes

variable {text : List Char} {g w least least' : Nat} {sure sure' : Bool} {body body' : Next → Next}

theorem skip : Passes text g w 0 false id where
  way hp h := ⟨_, [], h, .refl hp, Nat.le_refl _, nofun⟩

/-- One part after the other. -/
theorem seq (h : Passes text g w least sure body) (h' : Passes text g w least' sure' body') :
    Passes text g w (least + least') (sure || sure') (fun k => body (body' k)) := by
  refine ⟨fun {k p caps r} hp hr => ?_⟩
  obtain ⟨q, new, hk, hway, hle, hsure⟩ := h.way hp hr
  obtain ⟨q', new', hk', hway', hle', hsure'⟩ := h'.way hway.within hk
  refine ⟨q', new' ++ new, by rwa [List.append_assoc], hway.trans hway', by omega, fun hs => ?_⟩
  rcases Bool.or_eq_true_iff.1 hs with hs | hs
  · obtain ⟨start, stop, hmem⟩ := hsure hs
    exact ⟨start, stop, List.mem_append_right _ hmem⟩
  · obtain ⟨start, stop, hmem⟩ := hsure' hs
    exact ⟨start, stop, List.mem_append_left _ hmem⟩

theorem mono (h : Passes text g w least sure body) (hle : least' ≤ least)
    (hsure : sure' = true → sure = true) : Passes text g w least' sure' body := by
  refine ⟨fun {k p caps r} hp hr => ?_⟩
  obtain ⟨q, new, hk, hway, hwide, hset⟩ := h.way hp hr
  exact ⟨q, new, hk, hway, by omega, fun hs => hset (hsure hs)⟩

/-- A part whose matches are among those of two others. -/
theorem either {both : Next → Next} (h : Passes text g w least sure body)
    (h' : Passes text g w least' sure' body')
    (hboth : ∀ {k p caps r}, both k p caps = some r → body k p caps = some r ∨
      body' k p caps = some r) :
    Passes text g w (min least least') (sure && sure') both := by
  refine ⟨fun {k p caps r} hp hr => ?_⟩
  rcases hboth hr with hr | hr
  · exact (h.mono (Nat.min_le_left _ _) fun hs => (Bool.and_eq_true_iff.1 hs).1).way hp hr
  · exact (h'.mono (Nat.min_le_right _ _) fun hs => (Bool.and_eq_true_iff.1 hs).2).way hp hr

/-- A repetition that may stop at any time goes some way. -/
theorem runMost (h : Passes text g w least sure body) (lower : Nat) (upper : Option Nat) :
    ∀ (fuel count : Nat) (last : Option Nat),
      Passes text g w 0 false fun k => Pattern.runMost body lower upper k fuel count last := by
  intro fuel
  induction fuel with
  | zero => exact fun count last => skip
  | succ fuel ih =>
    intro count last
    refine ⟨fun {k p caps r} hp hr => ?_⟩
    have hround : ∀ last', Passes text g w 0 false fun k =>
        body (Pattern.runMost body lower upper k fuel (count + 1) last') :=
      fun last' => (h.seq (ih (count + 1) last')).mono (Nat.zero_le _) nofun
    rw [Pattern.runMost] at hr
    split at hr
    · exact (hround last).way hp hr
    · split at hr
      · split at hr
        · next heq => exact (hround (some p.index)).way hp (heq.trans hr)
        · exact skip.way hp hr
      · exact skip.way hp hr

theorem runLeast (h : Passes text g w least sure body) (lower : Nat) (upper : Option Nat) :
    ∀ (fuel count : Nat) (last : Option Nat),
      Passes text g w 0 false fun k => Pattern.runLeast body lower upper k fuel count last := by
  intro fuel
  induction fuel with
  | zero => exact fun count last => skip
  | succ fuel ih =>
    intro count last
    refine ⟨fun {k p caps r} hp hr => ?_⟩
    have hround : ∀ last', Passes text g w 0 false fun k =>
        body (Pattern.runLeast body lower upper k fuel (count + 1) last') :=
      fun last' => (h.seq (ih (count + 1) last')).mono (Nat.zero_le _) nofun
    rw [Pattern.runLeast] at hr
    split at hr
    · exact (hround last).way hp hr
    · split at hr
      · next heq => exact skip.way hp (heq.trans hr)
      · split at hr
        · exact (hround (some p.index)).way hp hr
        · cases hr

/-- A repetition goes as far as its first round, if it must go one. -/
theorem rounds_most (h : Passes text g w least sure body) (lower : Nat) (upper : Option Nat)
    (fuel : Nat) (last : Option Nat) :
    Passes text g w (if lower = 0 then 0 else least) (lower != 0 && sure)
      fun k => Pattern.runMost body lower upper k (fuel + 1) 0 last := by
  by_cases hlower : lower = 0
  · exact (h.runMost lower upper _ 0 last).mono (by simp [hlower]) (by simp [hlower])
  · have hround := h.seq (h.runMost lower upper fuel 1 last)
    refine ⟨fun {k p caps r} hp hr => ?_⟩
    rw [Pattern.runMost, if_pos (Nat.pos_of_ne_zero hlower)] at hr
    exact (hround.mono (by simp [hlower]) (by simp)).way hp hr

theorem rounds_least (h : Passes text g w least sure body) (lower : Nat) (upper : Option Nat)
    (fuel : Nat) (last : Option Nat) :
    Passes text g w (if lower = 0 then 0 else least) (lower != 0 && sure)
      fun k => Pattern.runLeast body lower upper k (fuel + 1) 0 last := by
  by_cases hlower : lower = 0
  · exact (h.runLeast lower upper _ 0 last).mono (by simp [hlower]) (by simp [hlower])
  · have hround := h.seq (h.runLeast lower upper fuel 1 last)
    refine ⟨fun {k p caps r} hp hr => ?_⟩
    rw [Pattern.runLeast, if_pos (Nat.pos_of_ne_zero hlower)] at hr
    exact (hround.mono (by simp [hlower]) (by simp)).way hp hr

/-- What is matched in the first way only. -/
theorem settled (h : Passes text g w least sure body) : Passes text g w least sure
    fun k p caps => match body (fun q caps => some (q, caps)) p caps with
      | some (q, caps) => k q caps
      | none => none := by
  refine ⟨fun {k p caps r} hp hr => ?_⟩
  split at hr
  · next q caps' heq =>
    obtain ⟨q', new, hk, hway⟩ := h.way hp heq
    cases hk
    exact ⟨q, new, hr, hway⟩
  · cases hr

theorem matchText (caseless : Bool) (again : List Char) :
    Passes text g w 0 false (Pattern.matchText caseless again) := by
  induction again with
  | nil => exact skip
  | cons c again ih =>
    refine ⟨fun {k p caps r} hp hr => ?_⟩
    rw [Pattern.matchText] at hr
    split at hr
    · cases hr
    · next d rest hrest =>
      split at hr
      · obtain ⟨q, new, hk, hway, hle, -⟩ := ih.way (hp.step hrest) hr
        refine ⟨q, new, hk, ⟨hway.within, ?_, hway.wide⟩, ?_, nofun⟩ <;>
        · simp only [Place.step] at hle
          omega
      · cases hr

/-- A single character. -/
theorem single {step : Next → Next} (h : ∀ {k p caps r}, step k p caps = some r →
    ∃ c rest, p.rest = c :: rest ∧ k (p.step c rest) caps = some r) :
    Passes text g w 1 false step := by
  refine ⟨fun {k p caps r} hp hr => ?_⟩
  obtain ⟨c, rest, hrest, hk⟩ := h hr
  exact ⟨_, [], hk, ⟨hp.step hrest, Nat.le_succ _, nofun⟩, Nat.le_refl _, nofun⟩

end Passes

/-- A match of a part is a way through the text: it has the width of the part at least, and sets
what the part always sets. -/
theorem Node.run_passes (caseless : Bool) (text : List Char) (g w : Nat) (n : Node)
    (hwide : n.wide g w = true) :
    Passes text g w n.width (n.sure g) (n.run caseless text) := by
  induction n with
  | empty => exact .skip
  | any =>
    refine .single fun {k p caps r} hr => ?_
    rw [Node.run] at hr
    split at hr
    · cases hr
    · next c rest hrest =>
      split at hr
      · cases hr
      · exact ⟨c, rest, hrest, hr⟩
  | set items inside =>
    refine .single fun {k p caps r} hr => ?_
    rw [Node.run] at hr
    split at hr
    · cases hr
    · next c rest hrest =>
      split at hr
      · exact ⟨c, rest, hrest, hr⟩
      · cases hr
  | anchor a =>
    refine ⟨fun {k p caps r} hp hr => ?_⟩
    rw [Node.run] at hr
    split at hr
    · exact Passes.skip.way hp hr
    · cases hr
  | again i =>
    refine ⟨fun {k p caps r} hp hr => ?_⟩
    rw [Node.run] at hr
    split at hr
    · exact (Passes.matchText _ _).way hp hr
    · cases hr
  | group i inner ih =>
    obtain ⟨hi, hinner⟩ := Bool.and_eq_true_iff.1 hwide
    refine ⟨fun {k p caps r} hp hr => ?_⟩
    obtain ⟨q, new, hk, hway, hle, hsure⟩ := (ih hinner).way hp hr
    -- the group is set when the inner part is matched
    refine ⟨q, (i, p.index, q.index) :: new, hk, ⟨hway.within, hway.le, ?_⟩, hle, ?_⟩
    · intro start stop hmem
      rcases List.mem_cons.1 hmem with heq | hmem
      · cases heq
        simp only [bne_self_eq_false, Bool.false_or, decide_eq_true_eq] at hi
        exact ⟨by omega, hway.within.le⟩
      · exact hway.wide start stop hmem
    · intro hs
      rcases Bool.or_eq_true_iff.1 hs with hs | hs
      · rw [beq_iff_eq.1 hs]
        exact ⟨_, _, List.mem_cons_self⟩
      · obtain ⟨start, stop, hmem⟩ := hsure hs
        exact ⟨start, stop, List.mem_cons_of_mem _ hmem⟩
  | bracketed inner ih => exact ih hwide
  | settled inner ih => exact (ih hwide).settled
  | seq first second ih ih' =>
    obtain ⟨hfirst, hsecond⟩ := Bool.and_eq_true_iff.1 hwide
    exact (ih hfirst).seq (ih' hsecond)
  | choice first second ih ih' =>
    obtain ⟨hfirst, hsecond⟩ := Bool.and_eq_true_iff.1 hwide
    refine (ih hfirst).either (ih' hsecond) fun {k p caps r} hr => ?_
    rw [Node.run] at hr
    split at hr
    · next heq => exact .inl (heq.trans hr)
    · exact .inr hr
  | loop lower upper greed inner ih =>
    have hinner := ih hwide
    refine ⟨fun {k p caps r} hp hr => ?_⟩
    cases greed with
    | most =>
      rw [Node.run] at hr
      exact (hinner.rounds_most lower upper _ _).way hp hr
    | least =>
      rw [Node.run] at hr
      exact (hinner.rounds_least lower upper _ _).way hp hr
    | fixed =>
      rw [Node.run] at hr
      exact (hinner.rounds_most lower upper _ _).settled.way hp hr

/-! ### Searches -/

/-- What a search finds is matched at a place of the text. -/
theorem exists_run_of_searchFrom (pattern : Pattern) (text : List Char) {found : Match} :
    ∀ (rest : List Char) (before : Option Char) (index : Nat),
      (⟨index, before, rest⟩ : Place).Within text →
      searchFrom pattern text before index rest = some found →
      ∃ p q caps, found = ⟨pattern, text, (0, p.index, q.index) :: caps⟩ ∧ p.Within text ∧
        pattern.root.run pattern.caseless text (fun q caps => some (q, caps)) p [] =
          some (q, caps) := by
  intro rest
  induction rest with
  | nil =>
    intro before index hp hfound
    rw [searchFrom] at hfound
    split at hfound
    · next q caps hrun =>
      cases hfound
      exact ⟨_, q, caps, rfl, hp, hrun⟩
    · cases hfound
  | cons c rest ih =>
    intro before index hp hfound
    rw [searchFrom] at hfound
    split at hfound
    · next q caps hrun =>
      cases hfound
      exact ⟨_, q, caps, rfl, hp, hrun⟩
    · exact ih _ _ (hp.step rfl) hfound

theorem exists_run_of_search {pattern : Pattern} {text : String} {found : Match}
    (h : pattern.search text = some found) :
    ∃ p q caps, found = ⟨pattern, text.toList, (0, p.index, q.index) :: caps⟩ ∧
      p.Within text.toList ∧
      pattern.root.run pattern.caseless text.toList (fun q caps => some (q, caps)) p [] =
        some (q, caps) :=
  exists_run_of_searchFrom pattern text.toList text.toList none 0 ⟨Nat.zero_le _, rfl⟩ h

theorem pattern_of_search {pattern : Pattern} {text : String} {found : Match}
    (h : pattern.search text = some found) : found.pattern = pattern := by
  obtain ⟨p, q, caps, rfl, -⟩ := exists_run_of_search h
  rfl

/-- **What the group of a match holds**: a text of the length that can be read off the pattern. -/
theorem group?_of_holds {pattern : Pattern} {ref : GroupRef} {w : Nat}
    (hholds : pattern.holds ref w = true) {text : String} {found : Match}
    (h : pattern.search text = some found) :
    ∃ s : String, found.group? ref = some (some s) ∧ w ≤ s.toList.length := by
  unfold holds at hholds
  split at hholds
  · next g hg =>
    simp only [Bool.and_eq_true, bne_iff_ne] at hholds
    obtain ⟨⟨hg0, hsure⟩, hwide⟩ := hholds
    obtain ⟨p, q, caps, rfl, hp, hrun⟩ := exists_run_of_search h
    obtain ⟨q', new, hk, hway, -, hset⟩ :=
      (Node.run_passes pattern.caseless text.toList g w pattern.root hwide).way hp hrun
    rw [List.append_nil] at hk
    cases hk
    obtain ⟨start, stop, hmem⟩ := hset hsure
    -- the group may have been set several times: the last time counts
    obtain ⟨⟨start, stop⟩, hlookup⟩ := exists_lookup_of_mem_keys (List.mem_map_of_mem hmem)
    obtain ⟨hlen, hstop⟩ := hway.wide start stop (mem_of_lookup_eq_some hlookup)
    refine ⟨String.ofList ((text.toList.take stop).drop start), ?_, ?_⟩
    · rw [Match.group?, hg, Option.map_some, lookup_cons_ite, if_neg hg0, hlookup, Option.map_some]
    · rw [String.toList_ofList, List.length_drop, List.length_take]
      omega
  · cases hholds

end Stencil.Pattern
