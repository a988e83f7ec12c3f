import Stencil.Proofs.Content.Plan

/-!
# Faults of an emission

A sink that gives up only to refuse data cannot make an emission fault: its refusals come back as
results.  So does whatever content meets that it reports: a format that its values do not fit, bytes
that are no text where they are escaped, a slot without content.  Three kinds of faults are not
reported: a text that its encoding cannot carry, an integer with too many digits to be written, and
a number that is out of range for its directive.  They end the emission.

## Main definitions

* `Sink.Refuses`, `Escape.Answers` — sinks that only refuse, and escapes that never give up.
* `Content.IsOrderly` — content without scripts, in known encodings, with a place for every slot.
* `Codec.Reads`, `Escape.Fails` — byte strings that a codec reads, or on which an escape fails.
* `Content.Meets` — somewhere in content there is what would end its emission.

## Main results

* `Content.meets_ending` — content that does not come to its end meets what ends it.
* `Content.Meets.ending_ne_whole` — content that meets such a thing does not come to its end.
* `Tree.emit_outcome` — an emission comes to its end just if its content meets nothing; it reports
  what it meets, or ends by a fault of one of these kinds.
-/

namespace Stencil

variable {σ ω : Type} {k : Sink σ}

/-! ### Sinks that refuse -/

/-- The sink gives up only to refuse data. -/
def Sink.Refuses (k : Sink σ) : Prop :=
  ∀ data s f, (k.write data s).1 = .gaveUp f → f.isRefusal = true

/-- Such a sink stops an emission by a refusal. -/
theorem Sink.Refuses.of_halts (hk : k.Refuses) {outcome : Except Fault EmitResult}
    (h : k.Halts outcome) :
    ∃ n f, outcome = .ok (.stopped n (.refused f)) ∧ k.Declines f := by
  cases h with
  | refused n _ declines => exact ⟨n, _, rfl, declines⟩
  | fault other declines =>
    cases declines with
    | gaveUp answer => cases other.symm.trans (hk _ _ _ answer)
    | took => cases other

theorem Sink.buffer_refuses : Sink.buffer.Refuses := nofun

/-! ### Orderly content -/

/-- The escape has an answer for every text. -/
def Escape.Answers (escape : Escape) : Prop := ∀ text, ∃ escaped, escape.run text = .ok escaped

/-- Content without scripts that is used as it is meant to be: its encodings are those of strict
codecs, its escapes have answers, and its templates have a place for every slot. -/
inductive Content.IsOrderly : Tree ω → Prop where
  /-- Nothing is orderly. -/
  | empty : IsOrderly .empty
  /-- Bytes are orderly. -/
  | data (bytes : Bytes) : IsOrderly (.data bytes)
  /-- A value is orderly in such an encoding. -/
  | print (value : Value) {encoding : Encoding} {codec : Codec}
    (known : encoding.codec = .ok codec) (strict : codec.IsStrict) :
    IsOrderly (.print value encoding)
  /-- Values in a format are orderly in such an encoding. -/
  | format (format : Points) (values : List Value) {encoding : Encoding} {codec : Codec}
    (known : encoding.codec = .ok codec) (strict : codec.IsStrict) :
    IsOrderly (.format format values encoding)
  /-- Orderly content between brackets is orderly. -/
  | brackets (before after : Bytes) {inner : Tree ω} (h : IsOrderly inner) :
    IsOrderly (.brackets before inner after)
  /-- Orderly content is orderly under an escape with answers. -/
  | escaper {escape : Escape} (answers : escape.Answers) {encoding : Encoding} {codec : Codec}
    (known : encoding.codec = .ok codec) (strict : codec.IsStrict) {inner : Tree ω}
    (h : IsOrderly inner) : IsOrderly (.escaper escape encoding inner)
  /-- A template with orderly content in its slots is orderly. -/
  | bound {template : Template ω} {bindings : List (Option (Tree ω))}
    (places : template.slotCount ≤ bindings.length)
    (h : ∀ c, some c ∈ bindings → IsOrderly c) : IsOrderly (.bound template bindings)

/-- Orderly content has no scripts. -/
theorem Content.IsOrderly.isPlain {c : Tree ω} (h : c.IsOrderly) : c.IsPlain := by
  induction h with
  | empty => exact .empty
  | data bytes => exact .data bytes
  | print value => exact .print value _
  | format format values => exact .format format values _
  | brackets before after _ ih => exact .brackets before after ih
  | escaper _ _ _ _ ih => exact .escaper _ _ ih
  | bound _ _ ih => exact .bound _ ih

/-! ### Byte strings through an escape -/

/-- The codec reads the byte strings one after the other, and knows `st'` after them if it knew `st`
before. -/
inductive Codec.Reads (codec : Codec) : (st : Codec.State) → List Bytes → Codec.State → Prop where
  /-- There are none. -/
  | nil (st : Codec.State) : Reads codec st [] st
  /-- The first one is empty, and is not looked at. -/
  | skip {st st' : Codec.State} {rest : List Bytes} (h : Reads codec st rest st') :
    Reads codec st ([] :: rest) st'
  /-- The first one completes a text, which may be empty. -/
  | cons {st st' st'' : Codec.State} {b : UInt8} {data : Bytes} {text : Points}
    {rest : List Bytes} (read : codec.feed st (b :: data) = (.ok text, st'))
    (h : Reads codec st' rest st'') : Reads codec st ((b :: data) :: rest) st''

/-- One of the byte strings, read one after the other, is no text, or the escaped text cannot be
written: `f` says why. -/
inductive Escape.Fails (escape : Escape) (codec : Codec) :
    (st : Codec.State) → List Bytes → (f : Fault) → Prop where
  /-- The first one is no text. -/
  | unreadable {st st' : Codec.State} {b : UInt8} {data : Bytes} {rest : List Bytes} {f : Fault}
    (bad : codec.feed st (b :: data) = (.error f, st')) :
    Fails escape codec st ((b :: data) :: rest) f
  /-- The text that the first one completes cannot be written after it was escaped. -/
  | unwritable {st st' : Codec.State} {b : UInt8} {data : Bytes} {p : Point} {text escaped : Points}
    {rest : List Bytes} {f : Fault} (read : codec.feed st (b :: data) = (.ok (p :: text), st'))
    (run : escape.run (p :: text) = .ok escaped) (bad : codec.encode escaped = .error f) :
    Fails escape codec st ((b :: data) :: rest) f
  /-- It is a later one, and the first one is empty. -/
  | skip {st : Codec.State} {rest : List Bytes} {f : Fault} (h : Fails escape codec st rest f) :
    Fails escape codec st ([] :: rest) f
  /-- It is a later one. -/
  | cons {st st' : Codec.State} {b : UInt8} {data : Bytes} {text : Points} {rest : List Bytes}
    {f : Fault} (read : codec.feed st (b :: data) = (.ok text, st'))
    (h : Fails escape codec st' rest f) : Fails escape codec st ((b :: data) :: rest) f

/-- The codec comes to know one thing only. -/
theorem Codec.Reads.unique {codec : Codec} {st st' st'' : Codec.State} {pieces : List Bytes}
    (h : codec.Reads st pieces st') (h' : codec.Reads st pieces st'') : st' = st'' := by
  induction h with
  | nil =>
    cases h' with
    | nil => rfl
  | skip _ ih =>
    cases h' with
    | skip h' => exact ih h'
  | cons read _ ih =>
    cases h' with
    | cons read' h' =>
      cases read.symm.trans read'
      exact ih h'

/-! ### What content meets -/

section Meets

variable [DigitLimit]

/-- Somewhere in the content there is what would end its emission, by a fault or an error. -/
inductive Content.Meets : Plan.Ending → Tree ω → Prop where
  /-- A value has an integer with too many digits. -/
  | digits {value : Value} {encoding : Encoding} {most : Nat}
    (text : ∀ bytes mutable, value ≠ .bytes bytes mutable)
    (many : DigitLimit.exceeded? value.shownDigits = some most) :
    Meets (.fault (.tooManyDigits most)) (.print value encoding)
  /-- A value has a text that its encoding cannot carry. -/
  | text {value : Value} {encoding : Encoding} {f : Fault}
    (text : ∀ bytes mutable, value ≠ .bytes bytes mutable)
    (few : DigitLimit.exceeded? value.shownDigits = none)
    (bad : encoding.encode value.display = .error f) : Meets (.fault f) (.print value encoding)
  /-- A format is filled with something that its encoding cannot carry. -/
  | filled {format text : Points} {values : List Value} {encoding : Encoding} {f : Fault}
    (fill : Format.render format values = .ok text) (bad : encoding.encode text = .error f) :
    Meets (.fault f) (.format format values encoding)
  /-- A number is out of range for its directive. -/
  | number {format : Points} {values : List Value} {encoding : Encoding} {cause : FormatError}
    (bad : Format.render format values = .error cause) (overflow : cause.isOverflow = true) :
    Meets (.fault (.format cause)) (.format format values encoding)
  /-- Values do not fit their format and are reported. -/
  | misfit {format : Points} {values : List Value} {encoding : Encoding} {cause : FormatError}
    (bad : Format.render format values = .error cause) (other : cause.isOverflow = false)
    (few : DigitLimit.exceeded? (Value.mostDigits values) = none) :
    Meets (.stopped (.format values format cause)) (.format format values encoding)
  /-- Values do not fit their format and cannot be reported, as they have an integer with too many
  digits. -/
  | untold {format : Points} {values : List Value} {encoding : Encoding} {cause : FormatError}
    {most : Nat} (bad : Format.render format values = .error cause)
    (other : cause.isOverflow = false)
    (many : DigitLimit.exceeded? (Value.mostDigits values) = some most) :
    Meets (.fault (.tooManyDigits most)) (.format format values encoding)
  /-- It is between brackets. -/
  | brackets {e : Plan.Ending} {before after : Bytes} {inner : Tree ω} (h : Meets e inner) :
    Meets e (.brackets before inner after)
  /-- Bytes that are to be escaped are no text, or the escaped text cannot be written. -/
  | fails {escape : Escape} {encoding : Encoding} {codec : Codec} {inner : Tree ω} {f : Fault}
    (known : encoding.codec = .ok codec)
    (fails : escape.Fails codec codec.start inner.plan.pieces f) :
    Meets (.stopped (.refused f)) (.escaper escape encoding inner)
  /-- Bytes that are to be escaped break off in a character. -/
  | unfinished {escape : Escape} {encoding : Encoding} {codec : Codec} {st : Codec.State}
    {inner : Tree ω} {f : Fault} (known : encoding.codec = .ok codec)
    (whole : inner.plan.ending = .whole) (reads : codec.Reads codec.start inner.plan.pieces st)
    (bad : codec.finish st = .error f) :
    Meets (.stopped (.refused f)) (.escaper escape encoding inner)
  /-- It is escaped on its way. -/
  | escaper {e : Plan.Ending} {escape : Escape} {encoding : Encoding} {inner : Tree ω}
    (h : Meets e inner) : Meets e (.escaper escape encoding inner)
  /-- A slot with a name has no content. -/
  | unbound {template : Template ω} {bindings : List (Option (Tree ω))} {slot : Nat} {name : String}
    (inside : slot < template.slotCount) (free : bindings[slot]? = some none)
    (named : template.nameAt slot = some name) :
    Meets (.stopped (.unbound name template.name)) (.bound template bindings)
  /-- It is in a slot. -/
  | bound {e : Plan.Ending} {template : Template ω} {bindings : List (Option (Tree ω))} {slot : Nat}
    {c : Tree ω} (inside : slot < template.slotCount) (bound : bindings[slot]? = some (some c))
    (h : Meets e c) : Meets e (.bound template bindings)

end Meets

/-! ### Values -/

theorem Encoding.isOfValue_of_encode {encoding : Encoding} {codec : Codec}
    (known : encoding.codec = .ok codec) (strict : codec.IsStrict) {text : Points} {f : Fault}
    (h : encoding.encode text = .error f) : f.kind.isOfValue = true := by
  rw [Encoding.encode, known] at h
  exact strict.encode text f h

section Content

variable [DigitLimit]

/-- All but byte strings are printed as text, if their integers may be. -/
theorem Value.printed_of_text {value : Value}
    (text : ∀ bytes mutable, value ≠ .bytes bytes mutable) (encoding : Encoding) :
    value.printed encoding =
      match DigitLimit.exceeded? value.shownDigits with
      | some most => .error (.tooManyDigits most)
      | Option.none => encoding.encode value.display := by
  unfold Value.printed
  split
  · exact absurd rfl (text _ _)
  · rfl

/-- **The faults that orderly content meets** are about values that are not allowed, or numbers that
are out of range. -/
theorem Content.Meets.kind {c : Tree ω} (hc : c.IsOrderly) {f : Fault} (h : c.Meets (.fault f)) :
    f.kind.isOfValue = true ∨ f.kind = .overflow := by
  generalize he : Plan.Ending.fault f = e at h
  induction h with
  | digits | untold =>
    cases he
    exact .inl rfl
  | text _ _ bad =>
    cases he
    cases hc with
    | print _ known strict => exact .inl (Encoding.isOfValue_of_encode known strict bad)
  | filled _ bad =>
    cases he
    cases hc with
    | format _ _ known strict => exact .inl (Encoding.isOfValue_of_encode known strict bad)
  | number =>
    cases he
    exact .inr rfl
  | misfit | fails | unfinished | unbound => cases he
  | brackets _ ih =>
    cases hc with
    | brackets _ _ hc => exact ih hc he
  | escaper _ ih =>
    cases hc with
    | escaper _ _ _ hc => exact ih hc he
  | bound _ bound _ ih =>
    cases hc with
    | bound _ hc => exact ih (hc _ (List.mem_of_getElem? bound)) he

/-- A value that is not printed meets the fault. -/
theorem Content.Meets.ofPrinted {value : Value} {encoding : Encoding} {f : Fault}
    (h : value.printed encoding = .error f) :
    Meets (.fault f) (.print value encoding : Tree ω) := by
  unfold Value.printed at h
  split at h
  · cases h
  · next htext =>
    split at h
    · next most hmany =>
      cases h
      exact .digits htext hmany
    · next hfew => exact .text htext hfew h

/-- A format that is not filled meets the fault. -/
theorem Content.Meets.ofFormatted {format : Points} {values : List Value} {encoding : Encoding}
    {f : Fault} (h : formatted format values encoding = .error f) :
    Meets (.fault f) (.format format values encoding : Tree ω) := by
  unfold formatted at h
  split at h
  · next text hfill =>
    cases hbad : encoding.encode text with
    | ok bytes =>
      rw [hbad] at h
      cases h
    | error g =>
      rw [hbad] at h
      cases h
      exact .filled hfill hbad
  · next cause hbad =>
    split at h
    · next hoverflow =>
      cases h
      exact .number hbad hoverflow
    · next hother =>
      split at h
      · next most hmany =>
        cases h
        exact .untold hbad (Bool.not_eq_true _ ▸ hother) hmany
      · cases h

/-- A format that its values do not fit meets the error. -/
theorem Content.Meets.ofMisfit {format : Points} {values : List Value} {encoding : Encoding}
    {cause : EmitCause} (h : formatted format values encoding = .ok (.error cause)) :
    Meets (.stopped cause) (.format format values encoding : Tree ω) := by
  unfold formatted at h
  split at h
  · next text _ => cases hbad : encoding.encode text <;> rw [hbad] at h <;> cases h
  · next cause hbad =>
    split at h
    · cases h
    · next hother =>
      split at h
      · cases h
      · next hfew =>
        cases h
        exact .misfit hbad (Bool.not_eq_true _ ▸ hother) hfew

end Content

/-! ### Plans through an escape -/

namespace Plan

variable {escape : Escape} {codec : Codec}

theorem Ending.ofFault_of_isOfValue {f : Fault} (h : f.kind.isOfValue = true) :
    Ending.ofFault f = .stopped (.refused f) := by
  have hrefusal : f.isRefusal = true := by
    rw [Fault.isRefusal, Fault.Kind.isRefusal, h, Bool.or_true]
  rw [Ending.ofFault, if_pos hrefusal]

/-- A plan through an escape ends where that fails, or the codec reads all and it ends as the plan
does. -/
theorem ending_escape_cases (hescape : escape.Answers) (hcodec : codec.IsStrict) (ending : Ending)
    (pieces : List Bytes) : ∀ st : Codec.State,
      (∃ f, escape.Fails codec st pieces f ∧
        (Plan.escape escape codec ending pieces st).ending = .stopped (.refused f)) ∨
      ∃ st', codec.Reads st pieces st' ∧
        (Plan.escape escape codec ending pieces st).ending = ending.after codec st' := by
  induction pieces with
  | nil => exact fun st => .inr ⟨st, .nil st, rfl⟩
  | cons piece rest ih =>
    intro st
    cases piece with
    | nil =>
      rcases ih st with ⟨f, hf, hending⟩ | ⟨st', hst', hending⟩
      · exact .inl ⟨f, .skip hf, hending⟩
      · exact .inr ⟨st', .skip hst', hending⟩
    | cons b data =>
      cases hfeed : codec.feed st (b :: data) with
      | mk read st' =>
        simp only [Plan.escape, hfeed]
        have hlater {text : Points} (hread : codec.feed st (b :: data) = (.ok text, st')) :
            (∃ f, escape.Fails codec st ((b :: data) :: rest) f ∧
              (Plan.escape escape codec ending rest st').ending = .stopped (.refused f)) ∨
            ∃ st'', codec.Reads st ((b :: data) :: rest) st'' ∧
              (Plan.escape escape codec ending rest st').ending = ending.after codec st'' := by
          rcases ih st' with ⟨f, hf, hending⟩ | ⟨st'', hst'', hending⟩
          · exact .inl ⟨f, .cons hread hf, hending⟩
          · exact .inr ⟨st'', .cons hread hst'', hending⟩
        obtain f | ⟨_ | ⟨p, text⟩⟩ := read
        · have hf : f.kind.isOfValue = true := hcodec.feed st _ f (by rw [hfeed])
          exact .inl ⟨f, .unreadable hfeed, Ending.ofFault_of_isOfValue hf⟩
        · exact hlater hfeed
        · obtain ⟨escaped, hrun⟩ := hescape (p :: text)
          simp only [hrun]
          cases hencode : codec.encode escaped with
          | error f =>
            have hf := Ending.ofFault_of_isOfValue (hcodec.encode escaped f hencode)
            exact .inl ⟨f, .unwritable hfeed hrun hencode, hf⟩
          | ok bytes => exact hlater hfeed

/-- Where the escape fails the plan does not come to its end. -/
theorem ending_escape_ne_whole {st : Codec.State} {pieces : List Bytes} {f : Fault}
    (h : escape.Fails codec st pieces f) (ending : Ending) :
    (Plan.escape escape codec ending pieces st).ending ≠ .whole := by
  induction h with
  | unreadable bad =>
    simp only [Plan.escape, bad]
    exact Ending.ofFault_ne_whole _
  | unwritable read run bad =>
    simp only [Plan.escape, read, run, bad]
    exact Ending.ofFault_ne_whole _
  | skip _ ih => exact ih
  | @cons st st' b data text rest f read _ ih =>
    simp only [Plan.escape, read]
    obtain _ | ⟨p, text⟩ := text
    · exact ih
    · -- this text may fail on its way, too
      dsimp only
      cases escape.run (p :: text) with
      | error g => exact Ending.ofFault_ne_whole g
      | ok escaped =>
        dsimp only
        cases codec.encode escaped with
        | error g => exact Ending.ofFault_ne_whole g
        | ok bytes => exact ih

/-- A plan that does not come to its end does not do so through an escape. -/
theorem ending_escape_of_ne_whole (hescape : escape.Answers) (hcodec : codec.IsStrict)
    {ending : Ending} (h : ending ≠ .whole) (pieces : List Bytes) (st : Codec.State) :
    (Plan.escape escape codec ending pieces st).ending ≠ .whole := by
  rcases ending_escape_cases hescape hcodec ending pieces st with ⟨f, -, hf⟩ | ⟨st', -, hst'⟩
  · rw [hf]
    exact Ending.stopped_ne_whole _
  · rw [hst']
    cases ending with
    | whole => exact absurd rfl h
    | stopped cause => exact Ending.stopped_ne_whole cause
    | fault f => exact Ending.fault_ne_whole f

/-- A plan does not come to its end through an escape if the codec has something left over. -/
theorem ending_escape_of_unfinished (hescape : escape.Answers) (hcodec : codec.IsStrict)
    {pieces : List Bytes} {st st' : Codec.State} {f : Fault} (reads : codec.Reads st pieces st')
    (bad : codec.finish st' = .error f) :
    (Plan.escape escape codec .whole pieces st).ending ≠ .whole := by
  rcases ending_escape_cases hescape hcodec .whole pieces st with ⟨g, -, hg⟩ | ⟨st'', hst'', hends⟩
  · rw [hg]
    exact Ending.stopped_ne_whole _
  · cases hst''.unique reads
    rw [hends, Ending.after, bad]
    dsimp only
    rw [if_pos (hcodec.finish st' f bad)]
    exact Ending.stopped_ne_whole _

end Plan

/-! ### Plans of slots -/

section Content

variable [DigitLimit]

/-- The plan of a slot. -/
def slotPlan (t : Template ω) (slot : Nat) : Option (Tree ω) → Plan
  | none => .unbound t.name (t.nameAt slot)
  | some c => c.plan

theorem slotsPlan_cons (t : Template ω) (slot : Nat) (binding : Option (Tree ω))
    (rest : List (Option (Tree ω))) :
    slotsPlan t slot (binding :: rest) =
      (slotPlan t slot binding).thenFragment t.fragments[slot]? (slotsPlan t (slot + 1) rest) := by
  cases binding <;> rfl

/-- Slots that do not come to their end end as one of them does. -/
theorem exists_ending_slotsPlan (t : Template ω) :
    ∀ (bindings : List (Option (Tree ω))) (slot : Nat), slot < t.slotCount →
      t.slotCount ≤ slot + bindings.length → (slotsPlan t slot bindings).ending ≠ .whole →
      ∃ i binding, slot + i < t.slotCount ∧ bindings[i]? = some binding ∧
        (slotPlan t (slot + i) binding).ending = (slotsPlan t slot bindings).ending := by
  intro bindings
  induction bindings with
  | nil =>
    intro slot hslot hplaces _
    rw [List.length_nil] at hplaces
    omega
  | cons binding rest ih =>
    intro slot hslot hplaces hne
    rw [List.length_cons] at hplaces
    rw [slotsPlan_cons] at hne ⊢
    by_cases hwhole : (slotPlan t slot binding).ending = .whole
    · cases hfragment : t.fragments[slot]? with
      | none =>
        rw [hfragment] at hne
        exact absurd hwhole hne
      | some f =>
        -- a slot with a fragment after it is not the last one
        obtain ⟨hlt, -⟩ := List.getElem?_eq_some_iff.1 hfragment
        rw [hfragment, Plan.ending_thenFragment_of_whole hwhole] at hne
        rw [Plan.ending_thenFragment_of_whole hwhole]
        obtain ⟨i, b, hi, hb, hending⟩ := ih (slot + 1) (Nat.succ_lt_succ hlt) (by omega) hne
        rw [Nat.add_right_comm] at hi hending
        exact ⟨i + 1, b, hi, hb, hending⟩
    · exact ⟨0, binding, hslot, rfl, (Plan.ending_thenFragment_of_ne hwhole _ _).symm⟩

/-- If slots come to their end each of them does. -/
theorem ending_slotPlan_of_slotsPlan (t : Template ω) :
    ∀ (bindings : List (Option (Tree ω))) (slot : Nat),
      (slotsPlan t slot bindings).ending = .whole →
      ∀ i binding, slot + i < t.slotCount → bindings[i]? = some binding →
        (slotPlan t (slot + i) binding).ending = .whole := by
  intro bindings
  induction bindings with
  | nil =>
    intro slot h
    cases h
  | cons b rest ih =>
    intro slot h i binding hi hbinding
    rw [slotsPlan_cons] at h
    have hfirst : (slotPlan t slot b).ending = .whole := Classical.byContradiction fun hne =>
      hne ((Plan.ending_thenFragment_of_ne hne _ _).symm.trans h)
    cases i with
    | zero =>
      cases hbinding
      exact hfirst
    | succ i =>
      have hlt : slot < t.fragments.length := by
        have hi : slot + (i + 1) < t.fragments.length + 1 := hi
        omega
      rw [List.getElem?_eq_getElem hlt, Plan.ending_thenFragment_of_whole hfirst] at h
      have hlater := ih (slot + 1) h i binding
      rw [Nat.add_right_comm] at hlater
      exact hlater hi hbinding

/-! ### The ending of an emission -/

/-- Brackets do not change how content ends. -/
theorem Content.ending_brackets (before after : Bytes) (inner : Tree ω) :
    (brackets before inner after).plan.ending = inner.plan.ending := by
  have hpiece (data : Bytes) : (Plan.somePiece data).ending = .whole := by
    unfold Plan.somePiece
    split <;> rfl
  have hbefore : ((Plan.somePiece before).andThen inner.plan).ending = inner.plan.ending :=
    Plan.ending_andThen_of_whole (hpiece before) _
  rw [Content.plan]
  by_cases h : inner.plan.ending = .whole
  · rw [Plan.ending_andThen_of_whole (hbefore.trans h), hpiece, h]
  · rw [Plan.ending_andThen_of_ne (hbefore ▸ h), hbefore]

section Parts

variable {encoding : Encoding} {codec : Codec}

theorem Content.meets_ending_print {value : Value}
    (h : (print value encoding : Tree ω).plan.ending ≠ .whole) :
    Meets (print value encoding : Tree ω).plan.ending (print value encoding : Tree ω) := by
  unfold Content.plan at h ⊢
  cases hprinted : value.printed encoding with
  | ok data =>
    rw [hprinted] at h
    exact absurd rfl h
  | error f => exact .ofPrinted hprinted

theorem Content.meets_ending_format {format : Points} {values : List Value}
    (h : (Content.format format values encoding : Tree ω).plan.ending ≠ .whole) :
    Meets (Content.format format values encoding : Tree ω).plan.ending
      (Content.format format values encoding : Tree ω) := by
  unfold Content.plan at h ⊢
  cases hformatted : formatted format values encoding with
  | error f => exact .ofFormatted hformatted
  | ok filled =>
    cases filled with
    | error cause => exact .ofMisfit hformatted
    | ok data =>
      rw [hformatted] at h
      exact absurd rfl h

theorem Content.meets_ending_escaper {escape : Escape} (answers : escape.Answers)
    (known : encoding.codec = .ok codec) (strict : codec.IsStrict) {inner : Tree ω}
    (hinner : inner.plan.ending ≠ .whole → inner.Meets inner.plan.ending)
    (h : (escaper escape encoding inner).plan.ending ≠ .whole) :
    Meets (escaper escape encoding inner).plan.ending (escaper escape encoding inner) := by
  have hplan : (escaper escape encoding inner).plan =
      .escape escape codec inner.plan.ending inner.plan.pieces codec.start := by
    rw [Content.plan, known]
  rw [hplan] at h ⊢
  rcases Plan.ending_escape_cases answers strict inner.plan.ending inner.plan.pieces codec.start
    with ⟨f, hfails, hending⟩ | ⟨st, hreads, hending⟩
  · rw [hending]
    exact .fails known hfails
  · rw [hending] at h ⊢
    cases hends : inner.plan.ending with
    | whole =>
      rw [hends, Plan.Ending.after] at h
      rw [Plan.Ending.after]
      cases hfinish : codec.finish st with
      | ok u =>
        rw [hfinish] at h
        exact absurd rfl h
      | error f =>
        dsimp only
        rw [if_pos (strict.finish st f hfinish)]
        exact .unfinished known hends hreads hfinish
    | stopped cause =>
      rw [hends] at hinner
      exact .escaper (hinner (Plan.Ending.stopped_ne_whole cause))
    | fault f =>
      rw [hends] at hinner
      exact .escaper (hinner (Plan.Ending.fault_ne_whole f))

theorem Content.meets_ending_bound {template : Template ω} {bindings : List (Option (Tree ω))}
    (places : template.slotCount ≤ bindings.length)
    (hbound : ∀ c, some c ∈ bindings → c.plan.ending ≠ .whole → c.Meets c.plan.ending)
    (h : (bound template bindings).plan.ending ≠ .whole) :
    Meets (bound template bindings).plan.ending (bound template bindings) := by
  have hplan : (bound template bindings).plan = slotsPlan template 0 bindings := rfl
  rw [hplan] at h ⊢
  obtain ⟨i, binding, hi, hbinding, hending⟩ :=
    exists_ending_slotsPlan template bindings 0 (Nat.succ_pos _) (by omega) h
  rw [Nat.zero_add] at hi hending
  rw [← hending] at h ⊢
  cases binding with
  | none =>
    unfold slotPlan Plan.unbound at h ⊢
    cases hname : template.nameAt i with
    | none =>
      rw [hname] at h
      exact absurd rfl h
    | some name => exact .unbound hi hbinding hname
  | some c => exact .bound hi hbinding (hbound c (List.mem_of_getElem? hbinding) h)

end Parts

/-- **Orderly content that does not come to its end meets what ends it.** -/
theorem Content.meets_ending {c : Tree ω} (hc : c.IsOrderly) (h : c.plan.ending ≠ .whole) :
    c.Meets c.plan.ending := by
  induction hc with
  | empty => exact absurd rfl h
  | data bytes => exact absurd rfl h
  | print => exact meets_ending_print h
  | format => exact meets_ending_format h
  | brackets before after _ ih =>
    rw [Content.ending_brackets] at h ⊢
    exact .brackets (ih h)
  | escaper answers known strict _ ih => exact meets_ending_escaper answers known strict ih h
  | bound places _ ih => exact meets_ending_bound places ih h

/-- **Orderly content that meets something does not come to its end.** -/
theorem Content.Meets.ending_ne_whole {c : Tree ω} (hc : c.IsOrderly) {e : Plan.Ending}
    (h : c.Meets e) : c.plan.ending ≠ .whole := by
  induction h with
  | digits text many =>
    rw [Content.plan, Value.printed_of_text text, many]
    exact Plan.Ending.fault_ne_whole _
  | text text few bad =>
    rw [Content.plan, Value.printed_of_text text, few]
    dsimp only
    rw [bad]
    exact Plan.Ending.fault_ne_whole _
  | filled fill bad =>
    rw [Content.plan, formatted, fill]
    dsimp only
    rw [bad]
    exact Plan.Ending.fault_ne_whole _
  | number bad overflow =>
    rw [Content.plan, formatted, bad]
    dsimp only
    rw [if_pos overflow]
    exact Plan.Ending.fault_ne_whole _
  | misfit bad other few =>
    simp only [Content.plan, formatted, bad, other, few]
    exact Plan.Ending.stopped_ne_whole _
  | untold bad other many =>
    simp only [Content.plan, formatted, bad, other, many]
    exact Plan.Ending.fault_ne_whole _
  | brackets _ ih =>
    cases hc with
    | brackets _ _ hc =>
      rw [ending_brackets]
      exact ih hc
  | fails known fails =>
    rw [Content.plan, known]
    exact Plan.ending_escape_ne_whole fails _
  | @unfinished escape encoding codec st inner f known whole reads bad =>
    cases hc with
    | escaper answers known' strict _ =>
      cases known.symm.trans known'
      rw [Content.plan, known, whole]
      exact Plan.ending_escape_of_unfinished answers strict reads bad
  | escaper _ ih =>
    cases hc with
    | escaper answers known strict hc =>
      rw [Content.plan, known]
      exact Plan.ending_escape_of_ne_whole answers strict (ih hc) _ _
  | @unbound template bindings slot name inside free named =>
    intro hwhole
    have hslot := ending_slotPlan_of_slotsPlan template bindings 0 hwhole slot none
    rw [Nat.zero_add, slotPlan, named] at hslot
    cases hslot inside free
  | @bound e template bindings slot c inside bound _ ih =>
    intro hwhole
    cases hc with
    | bound _ hc =>
      have hslot := ending_slotPlan_of_slotsPlan template bindings 0 hwhole slot (some c)
      rw [Nat.zero_add] at hslot
      exact ih (hc c (List.mem_of_getElem? bound)) (hslot inside bound)

/-- An emission to a sink that only refuses ends by no fault but one that its content meets. -/
theorem Content.meets_of_fault {c : Tree ω} (hc : c.IsOrderly) (hk : k.Refuses) {s : σ}
    {runs : Runs} {f : Fault} (h : (Tree.emit c k s runs).outcome = .error f) :
    c.Meets (.fault f) := by
  rw [Tree.emit_eq_ofPlan hc.isPlain] at h
  rcases Emission.outcome_ofPlan k c.plan s runs with ⟨n, hn⟩ | hstop
  · have hending : c.plan.ending = .fault f := by
      rw [h] at hn
      cases hplan : c.plan.ending <;> rw [hplan] at hn <;> cases hn
      rfl
    rw [← hending]
    exact Content.meets_ending hc (hending ▸ Plan.Ending.fault_ne_whole f)
  · obtain ⟨n, g, hg, -⟩ := hk.of_halts hstop
    cases h.symm.trans hg

/-- **How an emission to a sink that only refuses ends.**  Orderly content has it planned: it comes
to its end just if it meets nothing that would stop it, and else ends by what it meets first.  This
is the error of the result if it is one: a format that its values do not fit, bytes that are no
text, a slot without content.  It ends the emission without a result if it is a fault: a text that
its encoding cannot carry, an integer with too many digits, a number that is out of range.  All the
sink can do is to stop the emission before, by a refusal that is the error of the result. -/
theorem Tree.emit_outcome {c : Tree ω} (hc : c.IsOrderly) (hk : k.Refuses) (s : σ) (runs : Runs) :
    ((∃ n, (Tree.emit c k s runs).outcome = c.plan.ending.outcome n) ∨
      ∃ n f, (Tree.emit c k s runs).outcome = .ok (.stopped n (.refused f)) ∧ k.Declines f) ∧
    (c.plan.ending = .whole ↔ ∀ e, ¬ c.Meets e) ∧
    (c.plan.ending ≠ .whole → c.Meets c.plan.ending) ∧
    ∀ f, c.plan.ending = .fault f → f.kind.isOfValue = true ∨ f.kind = .overflow := by
  have hmeets := Content.meets_ending hc
  refine ⟨?_, ⟨?_, ?_⟩, hmeets, ?_⟩
  · rw [Tree.emit_eq_ofPlan hc.isPlain]
    exact (Emission.outcome_ofPlan k c.plan s runs).imp_right hk.of_halts
  · exact fun hwhole e he => he.ending_ne_whole hc hwhole
  · exact fun hnone => Classical.byContradiction fun hne => hnone _ (hmeets hne)
  · intro f hf
    have hfault := hmeets (hf ▸ Plan.Ending.fault_ne_whole f)
    rw [hf] at hfault
    exact hfault.kind hc

end Content

/-! ### Faults that are not reported -/

/-- A number that is no character, between brackets. -/
def unfitting : Tree Empty := .brackets [97, 98] (.format "%c" [.int 0x110000] .standard) [99]

/-- A letter in a code that lacks it. -/
def uncarried : Tree Empty := .print (.str "é") (.named "ascii")

/-- A half of a pair, which is no character, as a text. -/
def halved : Tree Empty := .print (.str [0xD800]) .standard

/-- An integer with 4301 digits. -/
def lengthy : Tree Empty := .print (.int (Nat.pow 10 4300)) .standard

theorem unfitting_isOrderly : unfitting.IsOrderly :=
  .brackets _ _ (.format _ _ Encoding.codec_standard Charset.utf8.isStrict_codec)

/-- Orderly content can end by a fault, also when bytes of it were written before. -/
theorem Tree.emit_faults_unfitting :
    Sink.buffer.Refuses ∧
    (unfitting.IsOrderly ∧
      (Tree.emit unfitting Sink.buffer [] []).outcome = .error (.format .noSuchCharacter) ∧
      (Tree.emit unfitting Sink.buffer [] []).sink = [97, 98]) ∧
    (uncarried.IsOrderly ∧ (Tree.emit uncarried Sink.buffer [] []).outcome =
      .error (.unencodable .ascii ⟨233, 0, 1⟩)) ∧
    (halved.IsOrderly ∧ (Tree.emit halved Sink.buffer [] []).outcome =
      .error (.unencodable .utf8 ⟨0xD800, 0, 1⟩)) ∧
    lengthy.IsOrderly ∧
      (@Tree.emit ⟨some 4300⟩ _ _ lengthy Sink.buffer [] []).outcome =
        .error (.tooManyDigits 4300) := by
  have hutf8 : Codec.utf8.IsStrict := Charset.utf8.isStrict_codec
  refine ⟨Sink.buffer_refuses, ⟨unfitting_isOrderly, rfl, rfl⟩, ⟨?_, rfl⟩, ⟨?_, rfl⟩, ?_, ?_⟩
  · exact .print _ rfl Charset.ascii.isStrict_codec
  · exact .print _ Encoding.codec_standard hutf8
  · exact .print _ Encoding.codec_standard hutf8
  · have hmany : @DigitLimit.exceeded? ⟨some 4300⟩ (Value.int (Nat.pow 10 4300)).shownDigits =
        some 4300 := by decide +kernel
    simp only [lengthy, Tree.emit, Value.printed, hmany, Emission.bytesOr]

/-- The fault is one that the content meets, and not one of the sink. -/
theorem Tree.emit_outcome_unfitting :
    ∃ f, (Tree.emit unfitting Sink.buffer [] []).outcome = .error f ∧
      unfitting.Meets (.fault f) ∧ (f.kind.isOfValue = true ∨ f.kind = .overflow) := by
  obtain ⟨hends, -, hmeets, hkind⟩ :=
    Tree.emit_outcome unfitting_isOrderly Sink.buffer_refuses [] []
  have hending : unfitting.plan.ending = .fault (.format .noSuchCharacter) := rfl
  rw [hending] at hends hmeets
  rcases hends with ⟨n, hn⟩ | ⟨n, f, hf, -⟩
  · exact ⟨_, hn, hmeets (Plan.Ending.fault_ne_whole _), hkind _ hending⟩
  · cases hf

end Stencil
