import Stencil.Proofs.Content.Accounting
import Stencil.Proofs.Text.Utf8

/-!
# Escaping in pieces

A sink that escapes gets bytes in pieces, which may divide a character, and escapes the text that
each of them completes.  If the escape distributes over texts in a row, the pieces leave no trace:
what reaches the target is the text as a whole, escaped.  Where the pieces are no text, the emission
stops, and what reached the target is the text before that, escaped.

## Main definitions

* `Escape.Distributes` — escapes that may be applied piece by piece.
* `Script.Writes` — scripts that write pieces in a row and stop if they are not taken.
* `Escaping.Forwards` — a text was escaped and written on.

## Main results

* `Escape.html_distributes` — the escape for HTML may be applied piece by piece.
* `Escaping.write_of_feed` — a write is answered as taken, and its text is written on.
* `Emission.ofEscaping_bytes` — so is a byte string, in one emission.
* `Tree.emit_escaped_pieces` — what reaches the target of a script that writes in pieces.
-/

namespace Stencil

variable {σ ω ρ : Type} {k : Sink σ} {held : σ → Bytes} {escape : Escape} {f : String → String}

/-! ### Escapes and scripts -/

/-- The escape computes `f` and never gives up, and texts in a row may be escaped one by one. -/
structure Escape.Distributes (escape : Escape) (f : String → String) : Prop where
  /-- It computes `f`. -/
  run : ∀ text : String, escape.run text = .ok (f text)
  /-- It makes nothing of nothing. -/
  empty : f "" = ""
  /-- It makes of texts in a row what it makes of each. -/
  append : ∀ text more, f (text ++ more) = f text ++ f more

theorem Html.escape_append (s t : String) :
    Html.escape (s ++ t) = Html.escape s ++ Html.escape t := by
  simp [Html.escape, String.toList_append, String.ofList_append]

/-- The escape for HTML may be applied piece by piece. -/
theorem Escape.html_distributes : Escape.html.Distributes Html.escape where
  run text := by
    have hescape := Html.escapePoints_ofChars text.toList
    rw [Html.escape, Points.ofString_ofList]
    exact congrArg Except.ok hescape
  empty := rfl
  append := Html.escape_append

/-- The script writes pieces in a row and then returns that nothing stopped it; a fault of the sink
ends it. -/
inductive Script.Writes : List Bytes → Script ω ρ → Prop where
  /-- No piece is left. -/
  | done {returned : Returned} {r : EmitResult} (hr : returned.toResult = .ok r)
    (hok : r.isOk = true) : Writes [] (.done returned)
  /-- A piece is written, and the others after it. -/
  | write {piece : Bytes} {pieces : List Bytes} {next : WriteOutcome → Script ω ρ}
    (through : ∀ f, next (.gaveUp f) = .giveUp f)
    (rest : ∀ outcome, (∀ f, outcome ≠ .gaveUp f) → Writes pieces (next outcome)) :
    Writes (piece :: pieces) (.write piece next)

/-- Acts that write are such a script. -/
theorem Script.writes_ofActs {final : Int → Returned}
    (hfinal : ∀ n, ∃ r, (final n).toResult = .ok r ∧ r.isOk = true) (pieces : List Bytes) :
    ∀ total : Int,
      Writes pieces (Script.ofActs (ω := ω) (ρ := ρ) final (pieces.map .write) total) := by
  induction pieces with
  | nil =>
    intro total
    obtain ⟨r, hr, hok⟩ := hfinal total
    exact .done hr hok
  | cons piece pieces ih =>
    intro total
    refine .write (fun _ => rfl) fun outcome hout => ?_
    cases outcome with
    | took n => exact ih _
    | tookAll => exact ih _
    | gaveUp f => exact absurd rfl (hout f)

/-! ### What a sink that escapes writes on -/

/-- A sink that always goes on takes a whole byte string. -/
theorem Sink.Honours.writeAll_of_willing (hk : k.Honours held) (hw : k.Willing) (data : Bytes)
    (s : σ) : ∃ s', k.writeAll data s = (.ok (.done data.length), s') ∧
      held s' = held s ++ data := by
  obtain ⟨⟨count, error⟩, taken, hr, hheld, hcovers, hok⟩ := hk.honest.writeAll data s
  have htaken : taken = data := hcovers.whole (hok hw)
  have hcount : count = taken.length := hcovers.count
  have herror : error = none := Option.isNone_iff_eq_none.1 (hok hw)
  subst htaken hcount herror
  exact ⟨_, Prod.ext hr rfl, hheld⟩

namespace Escaping

/-- The bytes that are written on for a text. -/
def escaped (f : String → String) (text : List Char) : Bytes :=
  Utf8.encode (f (String.ofList text)).toList

theorem escaped_nil (hf : escape.Distributes f) : escaped f [] = [] := by
  rw [escaped, String.ofList_nil, hf.empty]
  rfl

theorem escaped_append (hf : escape.Distributes f) (text more : List Char) :
    escaped f (text ++ more) = escaped f text ++ escaped f more := by
  rw [escaped, String.ofList_append, hf.append, String.toList_append, Utf8.encode_append]
  rfl

/-- From one state to another a text was escaped and written on. -/
structure Forwards (held : σ → Bytes) (f : String → String) (text : List Char)
    (st st' : Escaping σ) : Prop where
  /-- The target took it. -/
  target : held st'.target = held st.target ++ escaped f text
  /-- It is counted. -/
  forwarded : st'.forwarded = st.forwarded + (escaped f text).length
  /-- The target did not fail. -/
  failure : st'.failure = st.failure

variable {st st' st'' : Escaping σ} {text more : List Char}

theorem Forwards.nil (hf : escape.Distributes f) (h : st'.target = st.target)
    (hforwarded : st'.forwarded = st.forwarded) (hfailure : st'.failure = st.failure) :
    Forwards held f [] st st' where
  target := by rw [escaped_nil hf, List.append_nil, h]
  forwarded := by rw [escaped_nil hf, hforwarded, List.length_nil, Int.natCast_zero, Int.add_zero]
  failure := hfailure

theorem Forwards.append (hf : escape.Distributes f) (h : Forwards held f text st st')
    (h' : Forwards held f more st' st'') : Forwards held f (text ++ more) st st'' where
  target := by rw [escaped_append hf, h'.target, h.target, List.append_assoc]
  forwarded := by
    rw [escaped_append hf, h'.forwarded, h.forwarded, List.length_append, Int.natCast_add,
      Int.add_assoc]
  failure := h'.failure.trans h.failure

/-- A write that can be read is taken, and the text that it completes is written on. -/
theorem write_of_feed (hk : k.Honours held) (hw : k.Willing) (hf : escape.Distributes f)
    {data kept : Bytes} (h : Utf8.feed st.reading.kept data = .ok (text, kept)) :
    ∃ st', write k escape .utf8 data st = (.took data.length, st') ∧ Forwards held f text st st' ∧
      st'.reading.kept = kept := by
  have hfeed : Codec.utf8.feed st.reading data =
      (.ok (.ofChars text), { st.reading with kept }) := by
    have hcharset : Charset.utf8.feed st.reading.kept data = .ok (text, kept) := h
    simp only [Codec.utf8, Charset.codec, hcharset]
  unfold write
  rw [hfeed]
  cases text with
  | nil => exact ⟨{ st with reading := { st.reading with kept } }, rfl, .nil hf rfl rfl rfl, rfl⟩
  | cons c text =>
    obtain ⟨target, hwrite, hheld⟩ := hk.writeAll_of_willing hw (escaped f (c :: text)) st.target
    refine ⟨{ st with
      reading := { st.reading with kept }, target
      forwarded := st.forwarded + (escaped f (c :: text)).length }, ?_, ⟨hheld, rfl, rfl⟩, rfl⟩
    have hrun : escape.run (.ofChars (c :: text)) =
        .ok (.ofChars (f (String.ofList (c :: text))).toList) := by
      have hrun := hf.run (String.ofList (c :: text))
      rwa [Points.ofString_ofList] at hrun
    rw [Points.ofChars_cons] at hrun ⊢
    simp only [forward, hrun, Codec.encode_utf8]
    rw [← escaped, hwrite]
    rfl

/-- A write that cannot be read is refused, and changes nothing. -/
theorem write_of_fault {data : Bytes} {cause : Undecodable}
    (h : Utf8.feed st.reading.kept data = .error cause) :
    write k escape .utf8 data st = (.gaveUp (.undecodable .utf8 cause), st) := by
  have hfeed : Codec.utf8.feed st.reading data =
      (.error (.undecodable .utf8 cause), st.reading) := by
    have hcharset : Charset.utf8.feed st.reading.kept data = .error cause := h
    simp only [Codec.utf8, Charset.codec, hcharset]
  unfold write
  rw [hfeed]

/-- The result when `count` bytes reached the target, and `cause` is why the bytes before them are
no text, if they are none. -/
def ending (count : Int) : Option Undecodable → EmitResult
  | none => .done count
  | some cause => .stopped count (.refused (.undecodable .utf8 cause))

/-- What the content says is dropped unless it was stopped. -/
theorem conclude_of_isOk (hst : st.failure = none) {said : EmitResult} (hsaid : said.isOk = true) :
    st.conclude .utf8 said = .ok (ending st.forwarded (readPieces st.reading.kept []).2) := by
  have herror : said.error = none := Option.isNone_iff_eq_none.1 hsaid
  unfold conclude readPieces
  rw [hst, herror]
  simp only [Codec.utf8, Charset.codec, Charset.finish]
  cases Utf8.finish st.reading.kept <;> rfl

end Escaping

open Escaping in
/-- A script that writes pieces writes on, escaped, the text that is read of them. -/
theorem Script.Writes.emit (hk : k.Honours held) (hw : k.Willing) (hf : escape.Distributes f)
    {pieces : List Bytes} {script : Script ω Empty} (hs : script.Writes pieces) :
    ∀ (st : Escaping σ) (runs : Runs), st.failure = none →
      ∃ st' runs', Emission.ofEscaping .utf8
          (.ofScript (Script.run script (k.escaping escape .utf8) st runs)) =
            ⟨.ok (ending st'.forwarded (readPieces st.reading.kept pieces).2), st'.target, runs'⟩ ∧
        Forwards held f (readPieces st.reading.kept pieces).1 st st' := by
  induction hs with
  | @done returned r hr hok =>
    intro st runs hst
    refine ⟨st, runs, ?_, Utf8.readPieces_nil_fst st.reading.kept ▸ .nil hf rfl rfl rfl⟩
    simp only [Script.run, Emission.ofScript, hr, Emission.ofEscaping, conclude_of_isOk hst hok]
  | @write piece pieces next through rest ih =>
    intro st runs hst
    have hwrite : (k.escaping escape .utf8).write piece st =
        Escaping.write k escape .utf8 piece st := rfl
    rw [Script.run, hwrite, readPieces]
    cases hfeed : Utf8.feed st.reading.kept piece with
    | error cause =>
      -- the fault goes through the script, and comes back as the result
      rw [write_of_fault hfeed, through]
      refine ⟨st, runs, ?_, .nil hf rfl rfl rfl⟩
      have hrefusal : (Fault.undecodable .utf8 cause).isRefusal = true := rfl
      simp only [Script.run, Emission.ofScript, hrefusal, if_true, Emission.ofEscaping, conclude,
        hst]
      rfl
    | ok r =>
      obtain ⟨text, kept⟩ := r
      obtain ⟨st₁, hst₁, hforwards, hkept⟩ := write_of_feed hk hw hf hfeed
      obtain ⟨st', runs', hrun, hmore⟩ :=
        ih (.took piece.length) (fun f hf => by cases hf) st₁ runs (hforwards.failure.trans hst)
      rw [hkept] at hrun hmore
      rw [hst₁]
      exact ⟨st', runs', hrun, hforwards.append hf hmore⟩

open Escaping in
/-- A byte string is written on, escaped, as the text that is read of it. -/
theorem Emission.ofEscaping_bytes (hk : k.Honours held) (hw : k.Willing) (hf : escape.Distributes f)
    (data : Bytes) (st : Escaping σ) (runs : Runs) (hst : st.failure = none) :
    ∃ st', Emission.ofEscaping .utf8 (.bytes (k.escaping escape .utf8) data st runs) =
        ⟨.ok (ending st'.forwarded (readPieces st.reading.kept [data]).2), st'.target, runs⟩ ∧
      Forwards held f (readPieces st.reading.kept [data]).1 st st' := by
  have hdone (st : Escaping σ) (size : Int) (hst : st.failure = none) :
      Emission.ofEscaping .utf8 ⟨.ok (.done size), st, runs⟩ =
        ⟨.ok (ending st.forwarded (readPieces st.reading.kept []).2), st.target, runs⟩ := by
    rw [Emission.ofEscaping]
    dsimp only
    rw [conclude_of_isOk hst rfl]
  cases data with
  | nil =>
    -- nothing is written, and reading nothing keeps what was kept
    exact ⟨st, hdone st 0 hst, Utf8.readPieces_nil_fst st.reading.kept ▸ .nil hf rfl rfl rfl⟩
  | cons b rest =>
    have hwrite : (k.escaping escape .utf8).write (b :: rest) st =
        Escaping.write k escape .utf8 (b :: rest) st := rfl
    rw [readPieces, Emission.bytes]
    cases hfeed : Utf8.feed st.reading.kept (b :: rest) with
    | error cause =>
      rw [write_of_fault hfeed] at hwrite
      refine ⟨st, ?_, .nil hf rfl rfl rfl⟩
      rw [Sink.writeAll_of_answer (.inr ⟨_, congrArg Prod.fst hwrite⟩), hwrite]
      have hrefusal : (Fault.undecodable .utf8 cause).isRefusal = true := rfl
      simp only [WriteOutcome.settle, hrefusal, if_true, Emission.ofEscaping, conclude, hst]
      rfl
    | ok r =>
      obtain ⟨text, kept⟩ := r
      obtain ⟨st', hst', hforwards, rfl⟩ := write_of_feed hk hw hf hfeed
      rw [hst'] at hwrite
      refine ⟨st', ?_, ?_⟩
      · rw [Sink.writeAll_of_answer (.inl (congrArg Prod.fst hwrite)), hwrite]
        exact hdone st' _ (hforwards.failure.trans hst)
      · dsimp only
        rw [Utf8.readPieces_nil_fst, List.append_nil]
        exact hforwards

/-- **Pieces leave no trace.**  Let a script write bytes in pieces, divided anywhere, through a sink
that escapes in UTF-8 into a sink that takes all.  If the bytes are a text, the emission ends, and
the target took that text escaped.  If they are no text, the emission is stopped by that, and the
target took a text escaped that the bytes begin with.  The bytes that it took are counted.  The
escape for HTML is one of those that this holds for. -/
theorem Tree.emit_escaped_pieces (hk : k.Honours held) (hw : k.Willing)
    (hf : escape.Distributes f) {encoding : Encoding} (hutf8 : encoding.codec = .ok .utf8)
    {pieces : List Bytes} {script : Script ω Empty} (hs : script.Writes pieces)
    (label : Option String) (s : σ) (runs : Runs) :
    let e := Tree.emit (.escaper escape encoding (.generator label script)) k s runs
    Escape.html.Distributes Html.escape ∧
    (∀ text : String, pieces.flatten = Utf8.encode text.toList →
      held e.sink = held s ++ Utf8.encode (f text).toList ∧
        e.outcome = .ok (.done (Utf8.encode (f text).toList).length)) ∧
    ((∀ text : String, pieces.flatten ≠ Utf8.encode text.toList) →
      ∃ (u : String) (cause : Undecodable), Utf8.encode u.toList <+: pieces.flatten ∧
        held e.sink = held s ++ Utf8.encode (f u).toList ∧
        e.outcome = .ok (.stopped (Utf8.encode (f u).toList).length
          (.refused (.undecodable .utf8 cause)))) := by
  obtain ⟨st, runs', hemit, hforwards⟩ :=
    hs.emit hk hw hf (.start .utf8 s) (runs ++ label.toList) rfl
  have he : Tree.emit (.escaper escape encoding (.generator label script)) k s runs =
      ⟨.ok (Escaping.ending st.forwarded (readPieces [] pieces).2), st.target, runs'⟩ := by
    rw [Tree.emit, hutf8]
    exact hemit
  have htarget : held st.target = held s ++ Escaping.escaped f (readPieces [] pieces).1 :=
    hforwards.target
  have hcount : st.forwarded = (Escaping.escaped f (readPieces [] pieces).1).length :=
    hforwards.forwarded.trans (Int.zero_add _)
  dsimp only
  rw [he]
  refine ⟨Escape.html_distributes, ?_, ?_⟩
  · intro text htext
    have hread := (Utf8.readPieces_eq_none_iff pieces).2 htext
    rw [hread, Escaping.escaped, String.ofList_toList] at htarget hcount
    rw [hread, hcount]
    exact ⟨htarget, rfl⟩
  · intro hnone
    have hprefix := Utf8.isPrefix_of_readPieces pieces .none
    rw [List.nil_append] at hprefix
    cases hcause : (readPieces [] pieces).2 with
    | none =>
      -- then the pieces are what was read of them
      refine absurd ?_ (hnone (String.ofList (readPieces [] pieces).1))
      rw [String.toList_ofList]
      exact (Utf8.readPieces_eq_none_iff pieces).1 (Prod.ext rfl hcause)
    | some cause =>
      refine ⟨String.ofList (readPieces [] pieces).1, cause, ?_, htarget, ?_⟩
      · rw [String.toList_ofList]
        exact hprefix
      · rw [hcount]
        rfl

/-- Pieces written through the escape for HTML. -/
def escapedPieces (pieces : List Bytes) : Tree Empty :=
  .escaper Escape.html .standard
    (.generator none (.ofActs (fun n => .value (.int n)) (pieces.map .write) 0))

/-- A letter may be divided among pieces; the first two bytes of a surrogate are no text. -/
theorem Tree.emit_escaped_pieces_html :
    (Tree.emit (escapedPieces [[60, 195], [], [169, 38]]) (SinkStyle.short 2).sink .empty []
      ).sink.held = Utf8.encode "&lt;é&amp;".toList ∧
    ∃ (u : String) (cause : Undecodable), Utf8.encode u.toList <+: [38, 237, 160] ∧
      (Tree.emit (escapedPieces [[38, 237], [160]]) (SinkStyle.short 2).sink .empty []).outcome =
        .ok (.stopped (Utf8.encode (Html.escape u).toList).length
          (.refused (.undecodable .utf8 cause))) := by
  have hfinal (n : Int) : ∃ r, (Returned.value (.int n)).toResult = .ok r ∧ r.isOk = true :=
    ⟨_, rfl, rfl⟩
  have hk := SinkStyle.honours (.short 2) rfl
  constructor
  · obtain ⟨-, hread, -⟩ := Tree.emit_escaped_pieces hk (SinkStyle.short_willing 1)
      Escape.html_distributes Encoding.codec_standard
      (Script.writes_ofActs hfinal [[60, 195], [], [169, 38]] 0) none .empty []
    exact (hread "<é&" (by decide +kernel)).1
  · have hnone (text : String) : [[38, 237], [160]].flatten ≠ Utf8.encode text.toList := by
      intro htext
      have hread := congrArg Prod.snd ((Utf8.readPieces_eq_none_iff _).2 htext)
      have hfault : (readPieces [] [[38, 237], [160]]).2 ≠ none := by decide
      exact hfault hread
    obtain ⟨u, cause, hprefix, -, hstopped⟩ := (Tree.emit_escaped_pieces hk
      (SinkStyle.short_willing 1) Escape.html_distributes Encoding.codec_standard
      (Script.writes_ofActs hfinal [[38, 237], [160]] 0) none .empty []).2.2 hnone
    exact ⟨u, cause, hprefix, hstopped⟩

end Stencil
