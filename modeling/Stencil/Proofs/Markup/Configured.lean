import Stencil.Markup.Config

/-!
# What a configuration ends in

A configuration may be any value.  If no markup can be made of it, the user is told why; but keys
that are not known are listed for that, and only texts can be listed.  So a map with a key that is
no text upsets the reading.  Whatever is given for the keys that are known, nothing else does but
what making patterns of texts may end in, and integers that have too many digits to be told of.

## Main definitions

* `Config.Told` — computations that are stopped only by errors of the configuration and some faults.
* `Settings.Upset` — the faults that the settings of a configuration may end in.

## Main results

* `Config.unknownKeys_cases` — which keys cannot be told of.
* `Markup.told_ofSettings` — what upsets the reading of settings.
* `Markup.upset_of_ofConfig` — what upsets the reading of a configuration.
* `Markup.ofConfig_outcome` — what a configuration ends in.
* `Markup.not_forall_ofConfig` — it need not be a markup or an error of the configuration.
-/

namespace Stencil

variable {ω α β : Type}

namespace Config

variable {P Q : Fault → Prop}

/-- All that can stop the computation are errors of the configuration, and faults in `P`. -/
def Told (P : Fault → Prop) (x : Except (Failure ω) α) : Prop :=
  ∀ e, x = .error e → (∃ cause, e = .config cause) ∨ ∃ f, e = .fault f ∧ P f

theorem Told.mono {x : Except (Failure ω) α} (hx : Told P x) (h : ∀ f, P f → Q f) : Told Q x := by
  intro e he
  exact (hx e he).imp id fun ⟨f, hf, hP⟩ => ⟨f, hf, h f hP⟩

theorem told_ok (a : α) : Told P (.ok a : Except (Failure ω) α) := by
  intro e h
  cases h

theorem told_config (cause : ConfigError) :
    Told P (.error (.config cause) : Except (Failure ω) α) := by
  intro e h
  cases h
  exact .inl ⟨cause, rfl⟩

theorem told_fault {f : Fault} (h : P f) : Told P (.error (.fault f) : Except (Failure ω) α) := by
  intro e he
  cases he
  exact .inr ⟨f, rfl, h⟩

theorem Told.bind {x : Except (Failure ω) α} {next : α → Except (Failure ω) β} (hx : Told P x)
    (hnext : ∀ a, x = .ok a → Told P (next a)) : Told P (x >>= next) := by
  intro e h
  rcases bind_eq_error_iff.1 h with h | ⟨a, ha, h⟩
  · exact hx e h
  · exact hnext a ha e h

theorem told_foldlM {step : β → α → Except (Failure ω) β} :
    ∀ {items : List α}, (∀ b, ∀ item ∈ items, Told P (step b item)) → ∀ b,
      Told P (items.foldlM step b)
  | [], _, b => told_ok b
  | _ :: _, h, b => by
    rw [List.foldlM_cons]
    exact (h b _ List.mem_cons_self).bind fun b' _ =>
      told_foldlM (fun b item hitem => h b item (List.mem_cons_of_mem _ hitem)) b'

/-- Nothing but faults in `P` stops a computation that may end in them and is told of otherwise. -/
theorem Told.fault {x : Except (Failure ω) α} (hx : Told P x) {f : Fault}
    (h : x = .error (.fault f)) : P f := by
  rcases hx _ h with ⟨cause, hcause⟩ | ⟨f', hf', hP⟩
  · cases hcause
  · cases hf'
    exact hP

/-- What is told of is a result or an error of the configuration. -/
theorem Told.cases {x : Except (Failure ω) α} (hx : Told (fun _ => False) x) :
    (∃ a, x = .ok a) ∨ ∃ e, x = .error (.config e) := by
  cases x with
  | ok a => exact .inl ⟨a, rfl⟩
  | error e =>
    rcases hx e rfl with ⟨cause, rfl⟩ | ⟨-, -, hno⟩
    · exact .inr ⟨cause, rfl⟩
    · exact hno.elim

/-! ### Keys -/

/-- A key that is no text is none of those that are known. -/
theorem equals_str_eq_false {key : Value} (h : ∀ s, key ≠ .str s) (s : String) :
    key.equals (.str s) = false := by
  cases key with
  | str t => exact absurd rfl (h t)
  | _ => simp [Value.equals]

theorem texts?_eq_none_iff {keys : List Value} :
    texts? keys = none ↔ ∃ key ∈ keys, ∀ s, key ≠ .str s := by
  induction keys with
  | nil => simp [texts?]
  | cons key keys ih =>
    cases key with
    | str s => simp [texts?, ih]
    | _ => simp [texts?]

/-- The unknown keys that are no texts are all the keys that are no texts. -/
theorem exists_unknown_iff {keys : List Value} :
    (∃ key ∈ keys.filter fun key => !sections.any fun s => key.equals (.str s),
      ∀ s, key ≠ .str s) ↔ ∃ key ∈ keys, ∀ s, key ≠ .str s := by
  refine exists_congr fun key => and_congr_left fun hno => ?_
  have hunknown : (sections.any fun s => key.equals (.str s)) = false :=
    List.any_eq_false.2 fun s _ => by simp [equals_str_eq_false hno s]
  rw [List.mem_filter, hunknown, Bool.not_false, and_iff_left rfl]

/-- **The keys of a configuration** can be told of if all of them are texts, and otherwise they are
a fault. -/
theorem unknownKeys_cases (keys : List Value) :
    ((∀ key ∈ keys, ∃ s, key = .str s) ∧
      Told (fun _ => False) (unknownKeys keys : Except (Failure ω) Unit)) ∨
    (∃ key ∈ keys, ∀ s, key ≠ .str s) ∧
      ∃ f, (unknownKeys keys : Except (Failure ω) Unit) = .error (.fault f) ∧ f.kind = .type := by
  by_cases hno : ∃ key ∈ keys, ∀ s, key ≠ .str s
  · refine .inr ⟨hno, ?_⟩
    have hunknown := exists_unknown_iff.2 hno
    have htexts := texts?_eq_none_iff.2 hunknown
    unfold unknownKeys
    dsimp only
    split
    · next hnil =>
      rw [hnil] at hunknown
      obtain ⟨key, hkey, -⟩ := hunknown
      cases hkey
    · rw [htexts]
      dsimp only
      split
      · exact ⟨_, rfl, rfl⟩
      · exact ⟨_, rfl, rfl⟩
  · refine .inl ⟨fun key hkey => Classical.byContradiction fun hs => ?_, fun e he => ?_⟩
    · exact hno ⟨key, hkey, fun s heq => hs ⟨s, heq⟩⟩
    · unfold unknownKeys at he
      dsimp only at he
      split at he
      · cases he
      · split at he
        · cases he
          exact .inl ⟨_, rfl⟩
        · next htexts => exact absurd (exists_unknown_iff.1 (texts?_eq_none_iff.1 htexts)) hno

end Config

/-! ### Settings -/

namespace Settings

/-- The texts that patterns are made of: those of the markup by comments, and those that replace
them. -/
def sources (s : Settings) : List String :=
  let c := s.style.style
  [c.blockSource, c.startSource, c.finishSource] ++
    s.patterns.filterMap fun entry =>
      match entry.2 with
      | .str source => some source.shown
      | _ => none

/-- The values that are told of where they are wrong: the version, and the keys of patterns and
groups. -/
def toldOf (s : Settings) : List Value :=
  s.version :: (s.patterns.map (·.1) ++ s.groups.map (·.1))

/-- The faults that settings may end in: those of making patterns, other than that a text is none,
and the fault of telling of an integer with too many digits. -/
inductive Upset [DigitLimit] (compile : Pattern.Compiler) (s : Settings) : Fault → Prop where
  /-- A text has a fault that is not one of its pattern. -/
  | source {source : String} {f : Fault} (mem : source ∈ s.sources)
    (fails : compile source = .error f) (other : f.kind ≠ .pattern) : Upset compile s f
  /-- An integer has too many digits. -/
  | digits {v : Value} {most : Nat} (mem : v ∈ s.toldOf)
    (many : DigitLimit.exceeded? v.digits = some most) : Upset compile s (.tooManyDigits most)

theorem told_entries (raw : List (Value × Value)) (key : String) :
    Config.Told (fun _ => False) (Config.entries raw key : Except (Failure ω) _) := by
  unfold Config.entries
  split
  · exact Config.told_ok _
  · exact Config.told_ok _
  · exact Config.told_config _

/-- Sections that are no maps are told of. -/
theorem told_ofEntries (raw : List (Value × Value)) :
    Config.Told (fun _ => False) (ofEntries raw : Except (Failure ω) Settings) :=
  .bind (told_entries raw "inline") fun _ _ =>
  .bind (told_entries raw "comment") fun _ _ =>
  .bind (told_entries raw "patterns") fun _ _ =>
  .bind (told_entries raw "groups") fun _ _ => Config.told_ok _

end Settings

/-! ### Configurations -/

namespace Markup

open Config (Told)

variable {s : Settings} {compile : Pattern.Compiler}

/-- A markup by comments is stopped by one of its patterns, or by a value that is not allowed. -/
theorem comment_eq_error {c : CommentStyle} {f : Fault} (h : comment compile c = .error f) :
    (∃ source ∈ [c.blockSource, c.startSource, c.finishSource], compile source = .error f) ∨
      f.kind.isOfValue = true := by
  unfold comment at h
  rcases bind_eq_error_iff.1 h with h | ⟨block, -, h⟩
  · exact .inl ⟨_, by simp, h⟩
  rcases bind_eq_error_iff.1 h with h | ⟨start, -, h⟩
  · exact .inl ⟨_, by simp, h⟩
  rcases bind_eq_error_iff.1 h with h | ⟨finish, -, h⟩
  · exact .inl ⟨_, by simp, h⟩
  unfold checked fault? at h
  split at h
  · cases h
  · next f' hf =>
    cases h
    split at hf
    · cases hf
      exact .inr rfl
    · split at hf
      · cases hf
        exact .inr rfl
      · cases hf

/-- A map has its own entries, also where it does not count as true. -/
theorem entries?_map (es : List (Value × Value)) : entries? (.map es) = some es := by
  unfold entries?
  cases es with
  | nil => rfl
  | cons e es => rfl

/-- A configuration with entries that have a key is a map. -/
theorem eq_map_of_entries? {raw : Value} {es : List (Value × Value)} (h : entries? raw = some es)
    {P : Value → Prop} (hkey : ∃ key ∈ es.map (·.1), P key) : raw = .map es := by
  unfold entries? at h
  split at h
  · next es' hes =>
    cases h
    split at hes
    · exact hes
    · cases hes
      obtain ⟨key, hmem, -⟩ := hkey
      cases hmem
  · cases h

section Limit

variable [DigitLimit]

theorem told_showing {P : Fault → Prop} {digits : Nat} (e : ConfigError)
    (h : ∀ most, DigitLimit.exceeded? digits = some most → P (.tooManyDigits most)) :
    Told P (.error (Config.showing digits e) : Except (Failure ω) α) := by
  unfold Config.showing
  split
  · next most hmost => exact Config.told_fault (h most hmost)
  · exact Config.told_config e

theorem told_ofStyle : Told (s.Upset compile) (ofStyle compile s.style : Except (Failure ω) _) := by
  intro e h
  unfold ofStyle at h
  dsimp only at h
  split at h
  · cases h
  · next f hf =>
    split at h
    · cases h
      exact .inl ⟨_, rfl⟩
    · next hkind =>
      -- only a fault in making a pattern is neither about a value nor about a pattern
      cases h
      have hother : f.kind.isOfValue = false ∧ f.kind ≠ .pattern := by
        simpa [isConfigFault] using hkind
      refine .inr ⟨f, rfl, ?_⟩
      split at hf
      · cases hf
        cases hother.1
      · rcases comment_eq_error hf with ⟨source, hmem, hfails⟩ | hvalue
        · exact .source (List.mem_append_left _ hmem) hfails hother.2
        · rw [hvalue] at hother
          cases hother.1

theorem told_configurePattern (m : Markup) {entry : Value × Value} (h : entry ∈ s.patterns) :
    Told (s.Upset compile) (configurePattern compile m entry : Except (Failure ω) _) := by
  unfold configurePattern
  split
  · refine told_showing _ fun most hmost => ?_
    have hmem : entry.1 ∈ s.toldOf :=
      List.mem_cons_of_mem _ (List.mem_append_left _ (List.mem_map_of_mem h))
    exact .digits hmem (DigitLimit.exceeded?_mono (Value.shownDigits_le _) hmost)
  · next key source hkey hsource =>
    split
    · exact Config.told_ok _
    · next f hf =>
      split
      · exact Config.told_config _
      · next hother =>
        have hmem : source.shown ∈ s.sources :=
          List.mem_append_right _ (List.mem_filterMap.2 ⟨entry, h, by rw [hsource]⟩)
        exact Config.told_fault (.source hmem hf hother)
  · exact Config.told_config _

theorem told_configureGroup (m : Markup) {entry : Value × Value} (h : entry ∈ s.groups) :
    Told (s.Upset compile) (configureGroup m entry : Except (Failure ω) _) := by
  unfold configureGroup
  split
  · refine told_showing _ fun most hmost => ?_
    have hmem : entry.1 ∈ s.toldOf :=
      List.mem_cons_of_mem _ (List.mem_append_right _ (List.mem_map_of_mem h))
    exact .digits hmem (DigitLimit.exceeded?_mono (Value.shownDigits_le _) hmost)
  all_goals first | exact Config.told_ok _ | exact Config.told_config _

/-- **What upsets the reading of settings** is told of, or is one of two faults. -/
theorem told_ofSettings (compile : Pattern.Compiler) (s : Settings) :
    Told (s.Upset compile) (ofSettings compile s : Except (Failure ω) Markup) := by
  refine Told.bind ?_ fun _ _ => told_ofStyle.bind fun m _ =>
    (Config.told_foldlM (fun m entry hentry => told_configurePattern m hentry) m).bind fun m _ =>
      Config.told_foldlM (fun m entry hentry => told_configureGroup m hentry) m
  unfold checkVersion
  split
  · exact Config.told_ok _
  · exact told_showing _ fun most hmost => .digits List.mem_cons_self hmost

/-- **What upsets the reading of a configuration** are its keys, or its settings. -/
theorem upset_of_ofConfig {raw : Value} {f : Fault}
    (h : (ofConfig compile raw : Except (Failure ω) Markup) = .error (.fault f)) :
    ∃ es, entries? raw = some es ∧
      ((Config.unknownKeys (es.map (·.1)) = .error (.fault f : Failure ω) ∧
        ∃ key ∈ es.map (·.1), ∀ s, key ≠ .str s) ∨
      ∃ s, (Settings.ofEntries es : Except (Failure ω) Settings) = .ok s ∧ s.Upset compile f) := by
  unfold ofConfig at h
  split at h
  · next es hes =>
    refine ⟨es, hes, ?_⟩
    rcases bind_eq_error_iff.1 h with hkeys | ⟨-, -, hrest⟩
    · rcases Config.unknownKeys_cases (ω := ω) (es.map (·.1)) with ⟨-, htold⟩ | ⟨hno, -⟩
      · exact (htold.fault hkeys).elim
      · exact .inl ⟨hkeys, hno⟩
    · rcases bind_eq_error_iff.1 hrest with hentries | ⟨s, hs, hsettings⟩
      · exact ((Settings.told_ofEntries es).fault hentries).elim
      · exact .inr ⟨s, hs, (told_ofSettings compile s).fault hsettings⟩
  · cases h

end Limit

/-- If making patterns of texts only ends in patterns, or in that a text is none, then settings end
in no fault. -/
theorem not_upset (hcompile : ∀ source f, compile source = .error f → f.kind = .pattern)
    (f : Fault) : ¬ s.Upset compile f := by
  intro h
  cases h with
  | source _ fails other => exact other (hcompile _ _ fails)
  | digits _ many => cases many

/-- **What a configuration ends in.**  Let making a pattern of a text end in a pattern, or in that
the text is none.  Then any value as a configuration gives a markup, or an error of the
configuration that tells why not, or the fault of a type that cannot be listed; and it ends in a
fault if, and only if, it is a map with a key that is no text. -/
theorem ofConfig_outcome (compile : Pattern.Compiler)
    (hcompile : ∀ source f, compile source = .error f → f.kind = .pattern) (raw : Value) :
    ((∃ m, (ofConfig compile raw : Except (Failure ω) Markup) = .ok m) ∨
      (∃ e, (ofConfig compile raw : Except (Failure ω) Markup) = .error (.config e)) ∨
      ∃ f, (ofConfig compile raw : Except (Failure ω) Markup) = .error (.fault f) ∧
        f.kind = .type) ∧
    ((∃ f, (ofConfig compile raw : Except (Failure ω) Markup) = .error (.fault f)) ↔
      ∃ es, raw = .map es ∧ ∃ key ∈ es.map (·.1), ∀ s, key ≠ .str s) := by
  cases hes : entries? raw with
  | none =>
    have herror : (ofConfig compile raw : Except (Failure ω) Markup) =
        .error (.config .notAMapping) := by rw [ofConfig, hes]
    refine ⟨.inr (.inl ⟨_, herror⟩), fun ⟨f, hf⟩ => ?_, fun ⟨es, hmap, _⟩ => ?_⟩
    · cases herror.symm.trans hf
    · rw [hmap, entries?_map] at hes
      cases hes
  | some es =>
    have hrun : (ofConfig compile raw : Except (Failure ω) Markup) =
        (Config.unknownKeys (es.map (·.1)) >>= fun _ =>
          Settings.ofEntries es >>= ofSettings compile) := by rw [ofConfig, hes]
    rcases Config.unknownKeys_cases (ω := ω) (es.map (·.1)) with
      ⟨htexts, hkeys⟩ | ⟨hno, f, hf, hkind⟩
    · -- all keys can be told of, and so can all else
      have htold : Told (fun _ => False) (ofConfig compile raw : Except (Failure ω) Markup) := by
        rw [hrun]
        refine hkeys.bind fun _ _ => (Settings.told_ofEntries es).bind fun s _ => ?_
        exact (told_ofSettings compile s).mono fun f hf => not_upset hcompile f hf
      refine ⟨htold.cases.imp_right .inl, fun ⟨f, hf⟩ => (htold.fault hf).elim, ?_⟩
      rintro ⟨es', rfl, key, hmem, hno⟩
      rw [entries?_map] at hes
      cases hes
      obtain ⟨s, hs⟩ := htexts key hmem
      exact absurd hs (hno s)
    · have hfault : (ofConfig compile raw : Except (Failure ω) Markup) = .error (.fault f) := by
        rw [hrun, hf]
        rfl
      refine ⟨.inr (.inr ⟨f, hfault, hkind⟩), fun _ => ?_, fun _ => ⟨f, hfault⟩⟩
      exact ⟨es, eq_map_of_entries? hes hno, hno⟩

/-- The reader of patterns, with all that it does not take as texts that are no patterns. -/
def strictCompiler : Pattern.Compiler := fun source =>
  (Pattern.ofText source).mapError fun _ => .badPattern

theorem kind_of_strictCompiler {source : String} {f : Fault}
    (h : strictCompiler source = .error f) : f.kind = .pattern := by
  unfold strictCompiler at h
  cases hp : Pattern.ofText source with
  | ok p =>
    rw [hp] at h
    cases h
  | error f' =>
    rw [hp] at h
    cases h
    rfl

/-- Keys that are texts end in a markup or are told of, and a number as a key ends in a fault. -/
theorem ofConfig_outcome_strict :
    (∀ source f, strictCompiler source = .error f → f.kind = .pattern) ∧
    ((∃ m, (ofConfig strictCompiler (.map [(.str "patterns", .int 1)]) :
        Except (Failure Empty) Markup) = .ok m) ∨
      ∃ e, (ofConfig strictCompiler (.map [(.str "patterns", .int 1)]) :
        Except (Failure Empty) Markup) = .error (.config e)) ∧
    ∃ f, (ofConfig strictCompiler (.map [(.int 1, .int 2)]) : Except (Failure Empty) Markup) =
      .error (.fault f) := by
  have hcompile : ∀ source f, strictCompiler source = .error f → f.kind = .pattern :=
    fun _ _ => kind_of_strictCompiler
  obtain ⟨hends, hfault⟩ := ofConfig_outcome (ω := Empty) strictCompiler hcompile
    (.map [(.str "patterns", .int 1)])
  refine ⟨hcompile, ?_, ?_⟩
  · rcases hends with hm | he | ⟨f, hf, -⟩
    · exact .inl hm
    · exact .inr he
    · obtain ⟨es, hes, key, hkey, hno⟩ := hfault.1 ⟨f, hf⟩
      cases hes
      obtain rfl := List.mem_singleton.1 hkey
      exact absurd rfl (hno _)
  · refine (ofConfig_outcome (ω := Empty) strictCompiler hcompile _).2.2 ⟨_, rfl, .int 1, ?_, ?_⟩
    · exact List.mem_cons_self
    · exact fun s hs => by cases hs

/-- A configuration may end otherwise than in a markup or an error that tells why there is none,
even if making patterns of texts does not: a number as its key is not known, but cannot be
listed. -/
theorem not_forall_ofConfig : ¬ ∀ compile : Pattern.Compiler,
    (∀ source f, compile source = .error f → f.kind = .pattern) → ∀ raw : Value,
      (∃ m, (ofConfig compile raw : Except (Failure Empty) Markup) = .ok m) ∨
        ∃ e, (ofConfig compile raw : Except (Failure Empty) Markup) = .error (.config e) := by
  intro h
  have hfault : (ofConfig strictCompiler (.map [(.int 1, .int 2)]) :
      Except (Failure Empty) Markup) = .error (.fault (.keyNotText 0 "int")) := rfl
  rcases h strictCompiler (fun _ _ => kind_of_strictCompiler) (.map [(.int 1, .int 2)]) with
    ⟨m, hm⟩ | ⟨e, he⟩
  · cases hfault.symm.trans hm
  · cases hfault.symm.trans he

end Markup
end Stencil
