import Stencil.Proofs.Content.Accounting

/-!
# What escaped content can send

Whatever content does behind the escape for HTML, no markup of its own comes out of it.  It may
divide a character among its writes, count wrongly, or go on after a refusal: the sink in front of
the target reads its bytes as text and writes on each text escaped as a whole.  So the target gets
a text without markup characters, in which every ampersand starts an entity.  Only a target that
fails can cut that text off, and then nothing more reaches it.

## Main definitions

* `Html.entities`, `Html.IsHarmless` — the entities, and texts with no markup but these.
* `Sink.Failed`, `Sink.Stops` — sinks that have failed, and those that take nothing after that.
* `Escaping.Sends` — what has reached the target of a sink that escapes.

## Main results

* `Html.isHarmless_escapeChars` — escaped texts are harmless.
* `Escaping.keeps_sends` — every write sends on a harmless text, or a part of one.
* `Tree.emit_harmless` — what content sends through the escape for HTML.
-/

namespace Stencil

variable {σ ω : Type} {k : Sink σ} {held : σ → Bytes}

/-! ### Harmless texts -/

namespace Html

/-- The entities that markup characters are replaced by. -/
def entities : List (List Char) :=
  ["&lt;".toList, "&gt;".toList, "&amp;".toList, "&quot;".toList, "&apos;".toList]

/-- A text in which nothing is markup: it has no markup characters, and every ampersand in it starts
an entity. -/
structure IsHarmless (text : List Char) : Prop where
  /-- It has no markup characters but ampersands. -/
  plain : ∀ c ∈ text, c ∉ ['<', '>', '"', '\'', '\x00']
  /-- Every ampersand starts an entity. -/
  entity : ∀ before after, text = before ++ '&' :: after → ∃ e ∈ entities, e <+: '&' :: after

variable {text more : List Char}

/-- A text without markup characters and ampersands is harmless. -/
theorem isHarmless_of_plain (h : ∀ c ∈ text, c ∉ ['<', '>', '"', '\'', '\x00', '&']) :
    IsHarmless text where
  plain c hc hmem := h c hc (List.mem_append_left ['&'] hmem)
  entity before after htext := by
    have hmem : '&' ∈ text := by simp [htext]
    exact absurd (by simp) (h '&' hmem)

/-- Texts in a row are harmless if each of them is: an entity does not go on from one to the
next. -/
theorem IsHarmless.append (h : IsHarmless text) (h' : IsHarmless more) :
    IsHarmless (text ++ more) where
  plain c hc := by
    rcases List.mem_append.1 hc with hc | hc
    · exact h.plain c hc
    · exact h'.plain c hc
  entity before after heq := by
    rcases List.append_eq_append_iff.1 heq with ⟨between, rfl, hmore⟩ | ⟨rest, htext, hafter⟩
    · exact h'.entity between after hmore
    · cases rest with
      | nil => exact h'.entity [] after hafter.symm
      | cons c rest =>
        obtain ⟨rfl, rfl⟩ := List.cons.inj hafter
        obtain ⟨e, he, hstarts⟩ := h.entity before rest htext
        exact ⟨e, he, hstarts.trans (List.prefix_append ('&' :: rest) more)⟩

/-- An entity is harmless, as the ampersand at its start is its only one. -/
theorem isHarmless_of_mem_entities {e : List Char} (he : e ∈ entities) : IsHarmless e := by
  have hstart : ∃ rest, e = '&' :: rest ∧ ∀ c ∈ rest, c ∉ ['<', '>', '"', '\'', '\x00', '&'] := by
    simp only [entities, List.mem_cons, List.not_mem_nil, or_false] at he
    rcases he with rfl | rfl | rfl | rfl | rfl
    · exact ⟨['l', 't', ';'], rfl, by simp⟩
    · exact ⟨['g', 't', ';'], rfl, by simp⟩
    · exact ⟨['a', 'm', 'p', ';'], rfl, by simp⟩
    · exact ⟨['q', 'u', 'o', 't', ';'], rfl, by simp⟩
    · exact ⟨['a', 'p', 'o', 's', ';'], rfl, by simp⟩
  obtain ⟨rest, rfl, hrest⟩ := hstart
  constructor
  · intro c hc
    rcases List.mem_cons.1 hc with rfl | hc
    · decide
    · exact (isHarmless_of_plain hrest).plain c hc
  · intro before after heq
    cases before with
    | nil =>
      rw [List.nil_append] at heq
      exact ⟨_, he, heq ▸ List.prefix_rfl⟩
    | cons b before =>
      have hmem : '&' ∈ rest := by
        rw [(List.cons.inj heq).2]
        simp
      exact absurd (by simp) (hrest '&' hmem)

theorem isHarmless_escapeChar (c : Char) : IsHarmless (escapeChar c) := by
  unfold escapeChar
  repeat' split
  · exact isHarmless_of_mem_entities (by decide)
  · exact isHarmless_of_mem_entities (by decide)
  · exact isHarmless_of_mem_entities (by decide)
  · exact isHarmless_of_mem_entities (by decide)
  · exact isHarmless_of_mem_entities (by decide)
  · exact isHarmless_of_plain (by simp)
  · rename_i hlt hgt hamp hquot hapos hnul
    refine isHarmless_of_plain fun d hd => ?_
    rw [List.mem_singleton.1 hd]
    simp only [List.mem_cons, List.not_mem_nil, or_false, not_or]
    exact ⟨hlt, hgt, hquot, hapos, hnul, hamp⟩

/-- Escaped texts are harmless. -/
theorem isHarmless_escapeChars (text : List Char) : IsHarmless (escapeChars text) := by
  induction text with
  | nil => exact isHarmless_of_plain (by simp)
  | cons c text ih => exact (isHarmless_escapeChar c).append ih

end Html

/-! ### Sinks that have failed -/

/-- The sink has failed: at some write it refused, or took none of the bytes that it was given. -/
inductive Sink.Failed (k : Sink σ) : σ → Prop where
  /-- It gave up. -/
  | gaveUp {data : Bytes} {s : σ} {f : Fault} (hdata : data ≠ [])
    (h : (k.write data s).1 = .gaveUp f) : Failed k (k.write data s).2
  /-- It took nothing. -/
  | stalled {data : Bytes} {s : σ} {n : Int} (hdata : data ≠ [])
    (h : (k.write data s).1 = .took n) (hn : n ≤ 0) : Failed k (k.write data s).2
  /-- It failed before. -/
  | later {s : σ} (h : Failed k s) (data : Bytes) : Failed k (k.write data s).2

/-- The sink takes nothing any more once it has failed. -/
def Sink.Stops (k : Sink σ) (held : σ → Bytes) : Prop :=
  ∀ data s, k.Failed s → held (k.write data s).2 = held s

/-- What a sink that has failed holds stays as it is. -/
theorem Sink.Stops.keeps (h : k.Stops held) (base : Bytes) :
    k.Keeps fun s => k.Failed s ∧ held s = base := by
  rintro data s ⟨hfailed, hheld⟩
  exact ⟨hfailed.later data, (h data s hfailed).trans hheld⟩

/-- Only a sink that fails stops a byte string that is written to it. -/
theorem Sink.failed_of_writeRest (k : Sink σ) (size fuel : Nat) :
    ∀ (count : Int) (rest : Bytes) (s : σ) (r : EmitResult),
      (k.writeRest size fuel count rest s).1 = .ok r → r.isOk = false →
        k.Failed (k.writeRest size fuel count rest s).2 := by
  induction fuel with
  | zero =>
    intro count rest s r hr hstop
    cases hr
    cases hstop
  | succ fuel ih =>
    intro count rest s r hr hstop
    cases rest with
    | nil =>
      cases hr
      cases hstop
    | cons b rest =>
      have hne : b :: rest ≠ [] := List.cons_ne_nil _ _
      have hgave := fun f => Sink.Failed.gaveUp (k := k) (s := s) (f := f) hne
      have hstalled := fun n => Sink.Failed.stalled (k := k) (s := s) (n := n) hne
      unfold Sink.writeRest at hr ⊢
      generalize k.write (b :: rest) s = w at hr hgave hstalled ⊢
      obtain ⟨answer, s'⟩ := w
      cases answer with
      | tookAll =>
        cases hr
        cases hstop
      | gaveUp f => exact hgave f rfl
      | took n =>
        dsimp only at hr ⊢
        split
        · next hn => exact hstalled n rfl hn
        · next hn =>
          rw [if_neg hn] at hr
          exact ih _ _ _ r hr hstop

theorem Sink.failed_of_writeAll {data : Bytes} {s : σ} {r : EmitResult}
    (h : (k.writeAll data s).1 = .ok r) (hstop : r.isOk = false) :
    k.Failed (k.writeAll data s).2 := k.failed_of_writeRest _ _ _ _ _ r h hstop

/-! ### What reaches the target -/

/-- UTF-8 is read as characters. -/
theorem Codec.exists_chars_of_feed_utf8 {st : Codec.State} {data : Bytes} {text : Points}
    (h : (Codec.utf8.feed st data).1 = .ok text) : ∃ chars, text = .ofChars chars := by
  simp only [Codec.utf8, Charset.codec] at h
  split at h
  · cases h
    exact ⟨_, rfl⟩
  · cases h

namespace Escaping

/-- Since its state was `s`, the target took a harmless text; or the target failed, the sink in
front of it knows, and the text was cut off. -/
def Sends (k : Sink σ) (held : σ → Bytes) (s : σ) (st : Escaping σ) : Prop :=
  ∃ text taken, Html.IsHarmless text ∧ held st.target = held s ++ taken ∧
    taken <+: Utf8.encode text ∧
    (taken ≠ Utf8.encode text → k.Failed st.target ∧ st.failure ≠ none)

theorem sends_start (k : Sink σ) (held : σ → Bytes) (codec : Codec) (s : σ) :
    (start codec s).Sends k held s :=
  ⟨[], [], Html.isHarmless_of_plain (by simp), (List.append_nil _).symm, List.prefix_rfl,
    fun h => absurd rfl h⟩

/-- A state with the same target and the same failure has sent the same. -/
theorem Sends.congr {s : σ} {st st' : Escaping σ} (h : st.Sends k held s)
    (htarget : st'.target = st.target) (hfailure : st'.failure = st.failure) :
    st'.Sends k held s := by
  obtain ⟨text, taken, htext⟩ := h
  exact ⟨text, taken, by rwa [htarget, hfailure]⟩

/-- A text goes to the target escaped, and the error that stops it there is kept. -/
theorem forward_html (size : Nat) (read : List Char) (st : Escaping σ) {r : EmitResult}
    (hr : (k.writeAll (Utf8.encode (Html.escapeChars read)) st.target).1 = .ok r) :
    let st' := (forward k Escape.html .utf8 size (.ofChars read) st).2
    st'.target = (k.writeAll (Utf8.encode (Html.escapeChars read)) st.target).2 ∧
      st'.failure = r.error.or st.failure := by
  have hescaped : Escape.html.run (.ofChars read) = .ok (.ofChars (Html.escapeChars read)) :=
    congrArg Except.ok (Html.escapePoints_ofChars read)
  unfold forward
  rw [hescaped]
  simp only [Codec.encode_utf8]
  generalize k.writeAll (Utf8.encode (Html.escapeChars read)) st.target = w at hr ⊢
  obtain ⟨outcome, target⟩ := w
  cases hr
  obtain ⟨count, _ | error⟩ := r
  · exact ⟨rfl, rfl⟩
  · exact ⟨rfl, rfl⟩

/-- A harmless text is written on as a whole, or its beginning if the target fails on the way, or
nothing of it if the target had failed before. -/
theorem Sends.forward (hk : k.Honours held) (hstops : k.Stops held) {s : σ} {st : Escaping σ}
    (h : st.Sends k held s) (size : Nat) (read : List Char) :
    (forward k Escape.html .utf8 size (.ofChars read) st).2.Sends k held s := by
  obtain ⟨text, taken, htext, hheld, hprefix, hcut⟩ := h
  obtain ⟨r, more, hr, hmore, hcovers, -⟩ :=
    hk.honest.writeAll (Utf8.encode (Html.escapeChars read)) st.target
  obtain ⟨htarget, hfailure⟩ := forward_html size read st hr
  rw [← htarget] at hmore
  by_cases hwhole : taken = Utf8.encode text
  · -- all was taken so far, so what is taken now comes right behind it
    refine ⟨text ++ Html.escapeChars read, taken ++ more,
      htext.append (Html.isHarmless_escapeChars read), ?_, ?_, fun hne => ?_⟩
    · rw [hmore, hheld, List.append_assoc]
    · rw [hwhole, Utf8.encode_append]
      exact (List.prefix_append_right_inj _).2 hcovers.first
    · have hstop : r.isOk = false := by
        refine Bool.eq_false_iff.2 fun hok => hne ?_
        rw [hwhole, hcovers.whole hok, Utf8.encode_append]
      have herror : r.error ≠ none := by
        intro hnone
        rw [EmitResult.isOk, hnone] at hstop
        cases hstop
      have hfailed := Sink.failed_of_writeAll hr hstop
      rw [htarget, hfailure]
      exact ⟨hfailed, fun hnone => herror (Option.or_eq_none_iff.1 hnone).1⟩
  · -- the target has failed before, so it takes nothing
    obtain ⟨hfailed, hbefore⟩ := hcut hwhole
    obtain ⟨hfailed', hsame⟩ := (hstops.keeps (held st.target)).writeAll
      (Utf8.encode (Html.escapeChars read)) ⟨hfailed, rfl⟩
    refine ⟨text, taken, htext, ?_, hprefix, fun _ => ?_⟩
    · rw [htarget, hsame, hheld]
    · rw [htarget, hfailure]
      exact ⟨hfailed', fun hnone => hbefore (Option.or_eq_none_iff.1 hnone).2⟩

/-- **Every write sends on a harmless text**, or a part of one if the target fails. -/
theorem keeps_sends (hk : k.Honours held) (hstops : k.Stops held) (s : σ) :
    (k.escaping Escape.html .utf8).Keeps (Sends k held s) := by
  intro data st h
  simp only [Sink.escaping, Escaping.write]
  split
  · exact h
  · exact h.congr rfl rfl
  · next p text reading hfeed =>
    obtain ⟨chars, hchars⟩ := Codec.exists_chars_of_feed_utf8 (congrArg Prod.fst hfeed)
    have hreading : ({ st with reading } : Escaping σ).Sends k held s := h.congr rfl rfl
    rw [hchars]
    exact hreading.forward hk hstops _ _

/-- An emission is not told to have succeeded if the target failed. -/
theorem isOk_conclude_of_failure {st : Escaping σ} (h : st.failure ≠ none) (codec : Codec)
    {said r : EmitResult} (hr : st.conclude codec said = .ok r) : r.isOk = false := by
  unfold conclude at hr
  cases hf : st.failure with
  | none => exact absurd hf h
  | some e =>
    rw [hf] at hr
    cases hr
    rfl

end Escaping

/-- **Escaped content sends no markup.**  Let a sink keep its contract and take nothing more once it
has failed.  Whatever content is emitted to it through the escape for HTML, the sink gets the bytes
of a text without markup characters, in which every ampersand starts an entity.  That text is cut
off only if the sink has failed, and then the emission does not tell of success. -/
theorem Tree.emit_harmless [DigitLimit] (c : Tree ω) (hk : k.Honours held)
    (hstops : k.Stops held) (s : σ) (runs : Runs) :
    let e := Tree.emit (.escaper Escape.html .standard c) k s runs
    ∃ text taken, Html.IsHarmless text ∧ held e.sink = held s ++ taken ∧
      taken <+: Utf8.encode text ∧
      (taken ≠ Utf8.encode text →
        k.Failed e.sink ∧ ∀ r, e.outcome = .ok r → r.isOk = false) := by
  intro e
  have hsends := Tree.emit_keeps c (Escaping.keeps_sends hk hstops s) (.start .utf8 s) runs
    (Escaping.sends_start k held .utf8 s)
  have he : e = .ofEscaping .utf8
      (Tree.emit c (k.escaping Escape.html .utf8) (.start .utf8 s) runs) := rfl
  rw [he]
  generalize Tree.emit c (k.escaping Escape.html .utf8) (.start .utf8 s) runs = inner at hsends ⊢
  obtain ⟨outcome, st, runs'⟩ := inner
  obtain ⟨text, taken, htext, hheld, hprefix, hcut⟩ := hsends
  refine ⟨text, taken, htext, ?_, hprefix, fun hne => ?_⟩
  · cases outcome <;> exact hheld
  · obtain ⟨hfailed, hfailure⟩ := hcut hne
    cases outcome with
    | error f => exact ⟨hfailed, nofun⟩
    | ok said =>
      exact ⟨hfailed, fun r hr => Escaping.isOk_conclude_of_failure hfailure .utf8 hr⟩

/-- A recording sink with a limit takes nothing more once it has failed, as it is full then. -/
theorem SinkStyle.limited_stops (size : Nat) : (limited size).sink.Stops Recording.held := by
  have hfull (data : Bytes) (r : Recording) (h : size ≤ r.held.length) :
      ((limited size).sink.write data r).2.held = r.held := by
    simp only [sink, answer]
    rw [if_pos h]
  have hfailed (r : Recording) (h : (limited size).sink.Failed r) : size ≤ r.held.length := by
    induction h with
    | @gaveUp data r f hdata h =>
      simp only [sink, answer] at h ⊢
      split at h
      · next hle =>
        rw [if_pos hle]
        exact hle
      · cases h
    | @stalled data r n hdata h hn =>
      simp only [sink, answer] at h ⊢
      split at h
      · cases h
      · next hlt =>
        -- there was room, so some of the bytes were taken
        cases h
        have hpos := List.length_pos_iff.2 hdata
        rw [List.length_take] at hn
        omega
    | @later r h data ih =>
      rw [hfull data r ih]
      exact ih
  exact fun data r h => hfull data r (hfailed r h)

/-- Content that ignores refusals, writes on, and then claims to have written a single byte. -/
def heedless : Tree Empty :=
  .generator none (.ofActs (fun _ => .value (.int 1)) [.tryWrite [60], .tryWrite [60, 195],
    .tryWrite [169, 38], .tryWrite [60]] 0)

/-- The second entity is cut off where the sink is full. -/
theorem Tree.emit_harmless_heedless :
    let e := Tree.emit (.escaper Escape.html .standard heedless) (SinkStyle.limited 6).sink
      .empty []
    e.sink.held = Utf8.encode "&lt;&l".toList ∧
    ∃ text, Html.IsHarmless text ∧ e.sink.held <+: Utf8.encode text := by
  intro e
  obtain ⟨text, taken, htext, hheld, hprefix, -⟩ := Tree.emit_harmless heedless
    (SinkStyle.honours (.limited 6) rfl) (SinkStyle.limited_stops 6) .empty []
  refine ⟨by decide +kernel, text, htext, ?_⟩
  have hsame : e.sink.held = taken := hheld.trans (List.nil_append taken)
  rw [hsame]
  exact hprefix

end Stencil
