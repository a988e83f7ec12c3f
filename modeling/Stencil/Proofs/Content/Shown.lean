import Stencil.Bound.Fill
import Stencil.Proofs.Content.Escaped
import Stencil.Proofs.Content.Written

/-!
# The bytes of a value

A value that is filled in is shown as text, or in a format.  It emits those bytes in one write, to
any sink; a value that cannot be shown does not come to its end on any.  Under the escape for HTML
the bytes must be a text, and come out escaped.

## Main definitions

* `Value.Shown` — the bytes of a value, as text or in a format.
* `Value.ShownIn` — the bytes of a value where all is escaped, or nothing.
* `Tree.Emits`, `Tree.Fails` — content that is one write, and content that never comes to its end.

## Main results

* `Tree.written_inReport_iff` — content made of a value writes the bytes of the value.
-/

namespace Stencil

variable {ω : Type} {c : Tree ω} {data out : Bytes} {v : Value} {format : List Char}

/-! ### Values -/

/-- The bytes of a value: as text, or filled into a format, unless that is empty. -/
inductive Value.Shown (v : Value) : (format : List Char) → Bytes → Prop
  /-- The value is shown as text. -/
  | text {data : Bytes} (h : v.printed .standard = .ok data) : Shown v [] data
  /-- The value is shown in a format. -/
  | inFormat {format : List Char} {data : Bytes} (hne : format ≠ [])
    (h : formatted (.ofChars format) [v] .standard = .ok (.ok data)) : Shown v format data

theorem Value.Shown.unique {data data' : Bytes} (h : v.Shown format data)
    (h' : v.Shown format data') : data = data' := by
  cases h with
  | text h =>
    cases h' with
    | text h' => exact Except.ok.inj (h.symm.trans h')
    | inFormat hne => exact absurd rfl hne
  | inFormat hne h =>
    cases h' with
    | text => exact absurd rfl hne
    | inFormat _ h' => exact Except.ok.inj (Except.ok.inj (h.symm.trans h'))

/-- The bytes of a value where all is escaped for HTML, or nothing. -/
inductive Value.ShownIn (v : Value) (format : List Char) : (escape : Bool) → Bytes → Prop
  /-- The bytes as they are. -/
  | plain {data : Bytes} (h : v.Shown format data) : ShownIn v format false data
  /-- The bytes are a text, and the text is escaped. -/
  | escaped {text : List Char} (h : v.Shown format (Utf8.encode text)) :
    ShownIn v format true (Utf8.encode (Html.escapeChars text))

/-! ### Content in one write -/

/-- The emission of the content is one of the bytes, whatever the sink. -/
def Tree.Emits (c : Tree ω) (data : Bytes) : Prop :=
  ∀ {σ : Type} (k : Sink σ) (s : σ) (runs : Runs), Tree.emit c k s runs = .bytes k data s runs

/-- The emission of the content does not come to its end, whatever the sink. -/
def Tree.Fails (c : Tree ω) : Prop :=
  ∀ {σ : Type} (k : Sink σ) (s : σ) (runs : Runs), (Tree.emit c k s runs).succeeded = false

theorem Tree.Emits.written (h : Tree.Emits c data) : Tree.written c = .all data := by
  rw [Tree.written, h]
  exact ((Emission.writes_bytes data [] []).unique ⟨rfl, rfl⟩).symm

theorem Tree.Fails.written_ne (h : Tree.Fails c) : Tree.written c ≠ .all out := by
  intro hw
  have hwhole := congrArg Written.whole hw
  rw [Tree.written, h] at hwhole
  cases hwhole

/-- Content that says it was stopped is told to be stopped. -/
theorem Escaping.isOk_conclude {σ : Type} {st : Escaping σ} {codec : Codec} {said r : EmitResult}
    (h : said.isOk = false) (hr : st.conclude codec said = .ok r) : r.isOk = false := by
  unfold Escaping.conclude at hr
  split at hr
  · cases hr
    rfl
  · cases hr
    rfl
  · next hnone =>
    have hok : said.isOk = true := Option.isNone_iff_eq_none.2 hnone
    rw [h] at hok
    cases hok

/-- An emission through a sink that escapes comes to its end only if that of the content does. -/
theorem Emission.succeeded_ofEscaping {σ : Type} {e : Emission (Escaping σ) EmitResult}
    (h : e.succeeded = false) (codec : Codec) : (e.ofEscaping codec).succeeded = false := by
  obtain ⟨outcome, st, runs⟩ := e
  cases outcome with
  | error f => rfl
  | ok said =>
    unfold Emission.ofEscaping Emission.succeeded
    dsimp only
    cases hr : st.conclude codec said with
    | error f => rfl
    | ok r => exact Escaping.isOk_conclude h hr

theorem Tree.Fails.escaper (h : Tree.Fails c) (escape : Escape) (encoding : Encoding) :
    Tree.Fails (.escaper escape encoding c) := by
  intro σ k s runs
  rw [Tree.emit]
  cases encoding.codec with
  | ok codec => exact Emission.succeeded_ofEscaping (h _ _ _) codec
  | error f => rfl

/-! ### Into a buffer -/

theorem Sink.honours_buffer : Sink.buffer.Honours id where
  took data s n hn := by
    cases hn
    exact ⟨data, List.prefix_rfl, rfl, rfl⟩
  tookAll data s hall := by cases hall
  gaveUp data s f hf := by cases hf

theorem Sink.willing_buffer : Sink.buffer.Willing := by
  intro data s hdata
  exact .inr ⟨data.length, Int.natCast_pos.2 (List.length_pos_iff.2 hdata), rfl⟩

/-- One write through the escape for HTML into a buffer comes to its end if the bytes are a text. -/
theorem Tree.Emits.written_escaper (h : Tree.Emits c data) :
    Tree.written (.escaper Escape.html .standard c) =
      ⟨Escaping.escaped Html.escape (readPieces [] [data]).1, (readPieces [] [data]).2.isNone⟩ := by
  have hemit : Tree.emit (.escaper Escape.html .standard c) Sink.buffer [] [] =
      .ofEscaping .utf8
        (.bytes (Sink.buffer.escaping Escape.html .utf8) data (.start .utf8 []) []) := by
    rw [Tree.emit, Encoding.codec_standard]
    dsimp only
    rw [h]
  obtain ⟨st, hbytes, hforwards⟩ := Emission.ofEscaping_bytes Sink.honours_buffer
    Sink.willing_buffer Escape.html_distributes data (.start .utf8 []) [] rfl
  have htarget : st.target = [] ++ Escaping.escaped Html.escape (readPieces [] [data]).1 :=
    hforwards.target
  have hended : (Escaping.ending st.forwarded (readPieces [] [data]).2).isOk =
      (readPieces [] [data]).2.isNone := by
    cases (readPieces [] [data]).2 <;> rfl
  rw [List.nil_append] at htarget
  rw [Tree.written, hemit, hbytes, ← htarget, ← hended]
  rfl

theorem Tree.Emits.written_escaper_eq_iff (h : Tree.Emits c data) :
    Tree.written (.escaper Escape.html .standard c) = .all out ↔
      ∃ text, data = Utf8.encode text ∧ out = Utf8.encode (Html.escapeChars text) := by
  have hread (text : List Char) :
      readPieces [] [data] = (text, none) ↔ data = Utf8.encode text := by
    rw [Utf8.readPieces_eq_none_iff, List.flatten_singleton]
  have hescaped (text : List Char) :
      Escaping.escaped Html.escape text = Utf8.encode (Html.escapeChars text) := by
    rw [Escaping.escaped, Html.escape, String.toList_ofList, String.toList_ofList]
  rw [h.written_escaper, Written.all, Written.mk.injEq, hescaped, Option.isNone_iff_eq_none]
  constructor
  · rintro ⟨rfl, hnone⟩
    exact ⟨_, (hread _).1 (Prod.ext rfl hnone), rfl⟩
  · rintro ⟨text, hdata, rfl⟩
    rw [(hread text).2 hdata]
    exact ⟨rfl, rfl⟩

/-! ### Content made of a value -/

theorem Tree.emits_print {encoding : Encoding} (h : v.printed encoding = .ok data) :
    Tree.Emits (.print v encoding : Tree ω) data := by
  intro σ k s runs
  rw [Tree.emit, h]
  rfl

theorem Tree.fails_print {encoding : Encoding} (h : ∀ data, v.printed encoding ≠ .ok data) :
    Tree.Fails (.print v encoding : Tree ω) := by
  intro σ k s runs
  rw [Tree.emit]
  cases hv : v.printed encoding with
  | ok data => exact absurd hv (h data)
  | error f => rfl

theorem Tree.emits_format {format : Points} {values : List Value} {encoding : Encoding}
    (h : formatted format values encoding = .ok (.ok data)) :
    Tree.Emits (.format format values encoding : Tree ω) data := by
  intro σ k s runs
  rw [Tree.emit, h]

theorem Tree.fails_format {format : Points} {values : List Value} {encoding : Encoding}
    (h : ∀ data, formatted format values encoding ≠ .ok (.ok data)) :
    Tree.Fails (.format format values encoding : Tree ω) := by
  intro σ k s runs
  rw [Tree.emit]
  cases hv : formatted format values encoding with
  | error f => rfl
  | ok r =>
    cases r with
    | ok data => exact absurd hv (h data)
    | error cause => rfl

/-- Content made of a value emits the bytes of the value. -/
theorem Value.Shown.emits (h : v.Shown format data) :
    Tree.Emits (.ofValue format v : Tree ω) data := by
  cases h with
  | text h => exact Tree.emits_print h
  | inFormat hne h =>
    rw [Content.ofValue, if_neg (mt List.isEmpty_iff.1 hne)]
    exact Tree.emits_format h

/-- Content made of a value that cannot be shown fails. -/
theorem Value.fails_of_not_shown (h : ∀ data, ¬ v.Shown format data) :
    Tree.Fails (.ofValue format v : Tree ω) := by
  rw [Content.ofValue]
  split
  · next hnil =>
    cases List.isEmpty_iff.1 hnil
    exact Tree.fails_print fun data hdata => h data (.text hdata)
  · next hne =>
    exact Tree.fails_format fun data hdata => h data (.inFormat (mt List.isEmpty_iff.2 hne) hdata)

/-- Content as it is in a report that escapes, or does not. -/
def Tree.inReport (escape : Bool) (c : Tree ω) : Tree ω :=
  if escape then .escaper Escape.html .standard c else c

/-- Nothing is nothing in every report. -/
theorem Tree.written_inReport_empty (escape : Bool) :
    Tree.written (Tree.inReport escape (.empty : Tree ω)) = .all [] := by
  cases escape <;> rfl

/-- **Content made of a value writes the bytes of the value**, escaped if all is; and a value that
cannot be shown does not come to its end. -/
theorem Tree.written_inReport_iff (escape : Bool) :
    Tree.written (Tree.inReport escape (.ofValue format v : Tree ω)) = .all out ↔
      v.ShownIn format escape out := by
  by_cases hshown : ∃ data, v.Shown format data
  · obtain ⟨data, hdata⟩ := hshown
    have hemits : Tree.Emits (.ofValue format v : Tree ω) data := hdata.emits
    cases escape with
    | false =>
      rw [Tree.inReport, if_neg (by decide), hemits.written]
      constructor
      · rintro ⟨⟩
        exact .plain hdata
      · rintro ⟨h⟩
        rw [h.unique hdata]
    | true =>
      rw [Tree.inReport, if_pos rfl, hemits.written_escaper_eq_iff]
      constructor
      · rintro ⟨text, rfl, rfl⟩
        exact .escaped hdata
      · rintro (_ | @⟨text, h⟩)
        exact ⟨text, hdata.unique h, rfl⟩
  · rw [not_exists] at hshown
    have hfails : Tree.Fails (.ofValue format v : Tree ω) := Value.fails_of_not_shown hshown
    constructor
    · intro hwritten
      cases escape with
      | false => exact absurd hwritten hfails.written_ne
      | true => exact absurd hwritten (Tree.Fails.written_ne (hfails.escaper _ _))
    · rintro (⟨h⟩ | ⟨h⟩) <;> exact absurd h (hshown _)

end Stencil
