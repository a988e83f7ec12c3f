import Stencil.Proofs.Bound.Binding
import Stencil.Proofs.Source.Simulation

/-!
# What a parsed source renders to

When a source is parsed into an empty catalogue, its lines are those of a body, and the template of
each nesting path says what the bodies of that path say: the texts of their items, with a break
between two items that both keep it.  A path has a template if some item of its bodies adds
something to it.

Two paths may have the same key, if a name is empty or the separator is a longer text.  What is said
here of a path is said of one whose key belongs to no other path that is opened.

## Main results

* `Catalog.get?_of_parse` — the parts under a key.
* `Catalog.parse_layout` — the templates of a source, and what they render to.
-/

namespace Stencil

variable {ω : Type} {m : Markup} {root : String} {source : Lines} {c : Catalog ω}

theorem openings_ne_nil_of_mem_log {body : List Item} {p : List String} {parts : List (Part ω)}
    (h : (p, parts) ∈ Item.logOf m "" body) : openings p body ≠ [] := by
  have hat : (Item.logOf m "" body : Log ω).at_ p ≠ [] := by
    refine List.ne_nil_of_mem (a := parts) (List.mem_filterMap.2 ⟨_, h, ?_⟩)
    exact if_pos rfl
  obtain ⟨opening, hmem, -⟩ := (flatten_logAt m p body).2.1 hat
  exact List.ne_nil_of_mem hmem

/-- Under the key of a path a log tells what it tells of the path, if no other path has the key. -/
theorem told_eq_at {body : List Item} {path : List String}
    (hkey : ∀ p, openings p body ≠ [] →
      Parsing.keyOf m.pathSep p = Parsing.keyOf m.pathSep path → p = path) :
    PartsByKey.told m.pathSep (Item.logOf m "" body : Log ω) (Parsing.keyOf m.pathSep path) =
      (Item.logOf m "" body).at_ path := by
  refine List.filterMap_congr fun (p, parts) hmem => ?_
  dsimp only
  by_cases hp : p = path
  · rw [hp, if_pos rfl, if_pos rfl]
  · have hne : Parsing.keyOf m.pathSep p ≠ Parsing.keyOf m.pathSep path :=
      fun heq => hp (hkey p (openings_ne_nil_of_mem_log hmem) heq)
    rw [if_neg hp, if_neg hne]

/-- The lines of a source that is parsed without an error are those of a body. -/
theorem Catalog.exists_body_of_parse (h : Catalog.parse [] m root source = (c, none)) :
    ∃ body, Item.linesOf body = source.lines.map m.classify := by
  obtain ⟨sc, hrun, hpath, -⟩ := parse_follows h
  obtain ⟨body, hbody⟩ := Scene.exists_body hrun hpath
  exact ⟨body, hbody.symm⟩

/-- Under each key there is what the log of the body tells of it. -/
theorem Catalog.get?_of_parse (h : Catalog.parse [] m root source = (c, none)) {body : List Item}
    (hbody : Item.linesOf body = source.lines.map m.classify) (key : String) :
    (c.get? key).map Template.parts =
      if PartsByKey.told m.pathSep (Item.logOf m "" body : Log ω) key = [] then none
      else some (PartsByKey.told m.pathSep (Item.logOf m "" body) key).flatten := by
  obtain ⟨sc, hrun, -, -, hview⟩ := parse_follows h
  obtain ⟨pending, hafter⟩ := Scene.run_linesOf (ω := ω) m body .start
  rw [← hbody, hafter] at hrun
  cases hrun
  rw [← hview]
  simp only [Scene.after]
  exact PartsByKey.record_apply m.pathSep key (Item.logOf m "" body) fun _ => none

variable [Wrapping ω (Tree ω)]

/-- The openings of a path write their texts, one after the other. -/
theorem writtenAll_openings (m : Markup) (bodies : List (List Item)) :
    Part.writtenAll m.fill (bodies.flatMap (bodyParts m "") : List (Part ω)) =
      .all (Utf8.encode (bodies.flatMap (bodyText m))) := by
  induction bodies with
  | nil => rfl
  | cons body rest ih =>
    have hbefore : breakBefore "" body = [] := by
      cases body with
      | nil => rfl
      | cons x rest => exact ite_self _
    rw [List.flatMap_cons, List.flatMap_cons, Part.writtenAll_append, ih, writtenAll_bodyParts,
      hbefore, List.nil_append, Written.all_andThen_all, Utf8.encode_append]

/-- **The templates of a source.**  If a source is parsed without an error into an empty catalogue,
its lines are those of a body.  Take such a body, and a nesting path that shares its key with no
other opened path.  It has a template just if some item of its openings adds something to it.  With
each placeholder bound to its own markup, in any order, the template renders to the texts of the
openings, one after the other. -/
theorem Catalog.parse_layout (h : Catalog.parse [] m root source = (c, none)) :
    (∃ body, Item.linesOf body = source.lines.map m.classify) ∧
    ∀ body, Item.linesOf body = source.lines.map m.classify →
    ∀ path : List String,
      (∀ p, openings p body ≠ [] →
        Parsing.keyOf m.pathSep p = Parsing.keyOf m.pathSep path → p = path) →
      ((c.get? (Parsing.keyOf m.pathSep path)).isSome = true ↔
        ∃ opening ∈ openings path body, ∃ x ∈ opening, x.isAdded = true) ∧
      ∀ t, c.get? (Parsing.keyOf m.pathSep path) = some t →
      ∀ names, (∀ n, n ∈ names ↔ n ∈ t.names) →
        (Bound.bindEach m.fill names (Bound.fresh t)).2 = .ok () ∧
        ∀ runs, ((Bound.bindEach m.fill names (Bound.fresh t)).1.render runs).1 =
          .ok (Utf8.encode ((openings path body).flatMap (bodyText m))) := by
  refine ⟨exists_body_of_parse h, fun body hbody path hkey => ?_⟩
  have hget := get?_of_parse h hbody (Parsing.keyOf m.pathSep path)
  -- no other opened path has the key, so all that is under it was added for this path
  rw [told_eq_at hkey] at hget
  obtain ⟨hflat, hadded⟩ := flatten_logAt (ω := ω) m path body
  refine ⟨?_, fun t ht names hnames => ?_⟩
  · rw [← hadded, ← Option.isSome_map (f := Template.parts), hget]
    split
    · next hnil => simp [hnil]
    · next hne => simp [hne]
  · obtain ⟨-, -, -, hall, -⟩ := parse_follows h
    have hwf : t.WellFormed := hall _ (mem_of_get? ht)
    obtain ⟨hok, hwritten⟩ := Bound.written_bindEach hwf hnames m.fill
    refine ⟨hok, fun runs => (Tree.render_eq_ok_iff _ runs _).2 ?_⟩
    have hparts : t.parts = (openings path body).flatMap (bodyParts m "") := by
      rw [ht, Option.map_some] at hget
      split at hget
      · cases hget
      · rw [Option.some.inj hget, hflat]
    rw [hwritten, hparts, writtenAll_openings]

/-- The lines that begin with a character; a mark behind it is a group, and so is all else. -/
def Pattern.behind (c : Char) : Pattern :=
  ⟨"", .ofList [.anchor .start, .char c, .group 1 (.loop 0 (some 1) .most (.char '!')),
    .group 2 (.loop 1 none .most .any)], 2, [], false⟩

/-- A markup by first characters, in which a mark drops a break. -/
def Markup.marks : Markup where
  inlineStart := "`"
  inlineEnd := "`"
  block := .behind '='
  start := .behind '<'
  finish := .behind '>'
  blockName := some (.number 2)
  blockLead := some (.number 1)
  blockTrail := none
  startName := some (.number 2)
  startLead := some (.number 1)
  finishName := some (.number 2)
  finishTrail := some (.number 1)
  lineEnd := "\n"
  pathSep := "/"
  prepare := none

theorem Catalog.parse_layout_marks : ∃ c : Catalog (Wrap Empty),
    Catalog.parse [] .marks "page" ⟨["a `x`", "<!row", "b", "=!y", ">row", "c"], none⟩ = (c, none) ∧
      (c.get? "row").isSome = true ∧ ∀ t, c.get? "row" = some t →
        ((Bound.bindEach Markup.marks.fill t.names (Bound.fresh t)).1.render []).1 =
          .ok (Utf8.encode "b`y`".toList) := by
  obtain ⟨c, h⟩ : ∃ c : Catalog (Wrap Empty), Catalog.parse [] .marks "page"
    ⟨["a `x`", "<!row", "b", "=!y", ">row", "c"], none⟩ = (c, none) := ⟨_, rfl⟩
  have hlayout := (Catalog.parse_layout h).2
    [.plain "a `x`", .region false "row" true [.plain "b", .block false "y" true], .plain "c"] rfl
    ["row"]
  have hkey : ∀ p, openings p [.plain "a `x`",
      .region false "row" true [.plain "b", .block false "y" true], .plain "c"] ≠ [] →
      Parsing.keyOf "/" p = Parsing.keyOf "/" ["row"] → p = ["row"] := by
    intro p hp hkey
    -- the other opened path is that of the whole source
    cases p with
    | nil => exact absurd hkey (by decide)
    | cons n p =>
      by_cases hn : n = "row"
      · subst hn
        cases p with
        | nil => rfl
        | cons n p => simp [openings, Item.bodyNamed] at hp
      · simp [openings, Item.bodyNamed, Ne.symm hn] at hp
  obtain ⟨hsome, hrender⟩ := hlayout hkey
  refine ⟨c, h, hsome.2 ⟨[.plain "b", .block false "y" true], ?_, .plain "b", ?_, rfl⟩, ?_⟩
  · exact List.mem_singleton.2 rfl
  · exact List.mem_cons_self
  · exact fun t ht => (hrender t ht t.names fun _ => Iff.rfl).2 []

end Stencil
