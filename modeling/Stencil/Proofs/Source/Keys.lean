import Stencil.Proofs.Source.Rendering
import Stencil.Proofs.Text.Mark

/-!
# Keys of nesting paths

The key of a nesting path joins its names by the separator.  A name that contains the separator is
refused, but that is not enough to tell paths apart: a separator that overlaps itself may also be
found across the end of a name, and a single empty name has the key of the empty path.

## Main definitions

* `Parsing.Openable` — the paths that a parse lets be opened.
* `Parsing.WellNamed` — those of them without empty names.

## Main results

* `Parsing.keyOf_injective` — different paths have different keys if the separator does not overlap
  itself.
* `Markup.keyOf_injective_iff` — and only then.
* `Parsing.isPrefix_of_keyOf` — what is below a key is below its path.
* `Parsing.keyOf_append`, `Parsing.nameOf_nameOf` — keys and names of nested paths.
* `Parsing.keyOf_ne_nameOf` — what is not below a path has no key below its key.
-/

namespace Stencil

namespace Parsing

variable {sep : String} {p q : List String}

/-- The paths that a parse lets be opened: no name contains the separator. -/
def Openable (sep : String) (path : List String) : Prop :=
  ∀ n ∈ path, Text.occurs sep.toList n.toList = false

theorem toList_keyOf (sep : String) (path : List String) :
    (keyOf sep path).toList = sep.toList.intercalate (path.map String.toList) :=
  String.toList_intercalate

theorem Openable.free (h : Openable sep p) :
    ∀ t ∈ p.map String.toList, ¬ sep.toList <:+: t := by
  intro t ht
  obtain ⟨n, hn, rfl⟩ := List.mem_map.1 ht
  rw [← Text.occurs_iff, h n hn]
  exact Bool.false_ne_true

theorem toList_ne_nil (hsep : sep ≠ "") : sep.toList ≠ [] :=
  fun h => hsep (String.toList_eq_nil_iff.1 h)

/-- Different paths have different keys if the separator does not overlap itself. -/
theorem keyOf_injective (hb : Text.Borderless sep.toList) (hsep : sep ≠ "") (hp : Openable sep p)
    (hq : Openable sep q) (hp0 : p ≠ []) (hq0 : q ≠ []) (h : keyOf sep p = keyOf sep q) :
    p = q := by
  have hkeys := congrArg String.toList h
  rw [toList_keyOf, toList_keyOf] at hkeys
  have hnames := Text.intercalate_injective hb (toList_ne_nil hsep) hp.free hq.free
    (by simpa using hp0) (by simpa using hq0) hkeys
  exact List.map_injective_iff.2 (fun _ _ => String.toList_injective) hnames

/-- Only the empty path and a single empty name have the empty key. -/
theorem keyOf_eq_empty (hsep : sep ≠ "") (h : keyOf sep p = "") : p = [] ∨ p = [""] := by
  match p with
  | [] => exact .inl rfl
  | [n] => exact .inr (by rw [← h, keyOf, String.intercalate_singleton])
  | n :: n' :: rest =>
    rw [keyOf, String.intercalate_cons_cons] at h
    have hlist := congrArg String.toList h
    simp [hsep] at hlist

/-- What is below the key of a path belongs to a path below it. -/
theorem isPrefix_of_keyOf (hb : Text.Borderless sep.toList) (hsep : sep ≠ "")
    (hp : Openable sep p) (hq : Openable sep q) (hp0 : p ≠ []) {x : String}
    (h : keyOf sep q = keyOf sep p ++ sep ++ x) : p <+: q := by
  have hkeys := congrArg String.toList h
  rw [String.toList_append, String.toList_append, toList_keyOf, toList_keyOf] at hkeys
  have hprefix := Text.prefix_of_intercalate hb (toList_ne_nil hsep) x.toList hp.free hq.free
    (by simpa using hp0) hkeys
  exact (List.prefix_map_iff_of_injective fun _ _ => String.toList_injective).1 hprefix

/-! ### Names below a name -/

@[simp] theorem nameOf_empty (sep root : String) : nameOf sep root "" = root := rfl

theorem nameOf_of_ne {root x : String} (hroot : root ≠ "") (hx : x ≠ "") :
    nameOf sep root x = root ++ sep ++ x := by
  simp [nameOf, hroot, hx]

theorem nameOf_ne_empty {root x : String} (hroot : root ≠ "") : nameOf sep root x ≠ "" := by
  by_cases hx : x = ""
  · rwa [hx, nameOf_empty]
  · rw [nameOf_of_ne hroot hx]
    simp [hroot]

/-- A name below a name below a third one. -/
theorem nameOf_nameOf (root : String) {key : String} (hkey : key ≠ "") (x : String) :
    nameOf sep root (nameOf sep key x) = nameOf sep (nameOf sep root key) x := by
  by_cases hx : x = ""
  · rw [hx, nameOf_empty, nameOf_empty]
  · by_cases hroot : root = ""
    · have hempty : ∀ y, nameOf sep "" y = y := by
        intro y
        by_cases hy : y = "" <;> simp [nameOf, hy]
      rw [hroot, hempty, hempty]
    · have hbelow : nameOf sep key x ≠ "" := nameOf_ne_empty hkey
      rw [nameOf_of_ne hroot hbelow, nameOf_of_ne hkey hx, nameOf_of_ne hroot hkey,
        nameOf_of_ne (by simp [hroot]) hx]
      simp only [String.append_assoc]

theorem nameOf_injective {key x y : String} (hkey : key ≠ "")
    (h : nameOf sep key x = nameOf sep key y) : x = y := by
  -- only nothing below a name has that name itself
  have hself : ∀ z, z ≠ "" → key ≠ key ++ sep ++ z := by
    intro z hz heq
    have hlist := congrArg (fun s : String => s.toList.length) heq
    have hpos := List.length_pos_iff.2 (toList_ne_nil hz)
    simp only [String.toList_append, List.length_append] at hlist
    omega
  by_cases hx : x = "" <;> by_cases hy : y = ""
  · rw [hx, hy]
  · rw [hx, nameOf_empty, nameOf_of_ne hkey hy] at h
    exact absurd h (hself y hy)
  · rw [hy, nameOf_empty, nameOf_of_ne hkey hx] at h
    exact absurd h.symm (hself x hx)
  · rw [nameOf_of_ne hkey hx, nameOf_of_ne hkey hy] at h
    have hlist := congrArg String.toList h
    simp only [String.toList_append] at hlist
    exact String.toList_injective (List.append_cancel_left hlist)

theorem keyOf_ne_empty (hsep : sep ≠ "") (hp0 : p ≠ []) (hp : ∀ n ∈ p, n ≠ "") :
    keyOf sep p ≠ "" := by
  intro h
  rcases keyOf_eq_empty hsep h with rfl | rfl
  · exact hp0 rfl
  · exact hp "" List.mem_cons_self rfl

/-- The key of a path is the name of its end below its start. -/
theorem keyOf_append (hsep : sep ≠ "") (hp0 : p ≠ []) (hp : ∀ n ∈ p, n ≠ "")
    (hq : ∀ n ∈ q, n ≠ "") : keyOf sep (p ++ q) = nameOf sep (keyOf sep p) (keyOf sep q) := by
  by_cases hq0 : q = []
  · rw [hq0, List.append_nil]
    rfl
  · rw [nameOf_of_ne (keyOf_ne_empty hsep hp0 hp) (keyOf_ne_empty hsep hq0 hq), keyOf,
      String.intercalate_append_of_ne_nil hp0 hq0]
    rfl

/-- The paths whose names are not empty and do not contain the separator. -/
def WellNamed (sep : String) (path : List String) : Prop :=
  ∀ n ∈ path, n ≠ "" ∧ Text.occurs sep.toList n.toList = false

theorem WellNamed.openable (h : WellNamed sep p) : Openable sep p := fun n hn => (h n hn).2

theorem WellNamed.ne_empty (h : WellNamed sep p) : ∀ n ∈ p, n ≠ "" := fun n hn => (h n hn).1

theorem WellNamed.dropLast (h : WellNamed sep p) : WellNamed sep p.dropLast :=
  fun n hn => h n (List.mem_of_mem_dropLast hn)

theorem WellNamed.concat (h : WellNamed sep p) {n : String}
    (hn : n ≠ "" ∧ Text.occurs sep.toList n.toList = false) : WellNamed sep (p ++ [n]) := by
  intro n' hn'
  rcases List.mem_append.1 hn' with hn' | hn'
  · exact h n' hn'
  · rw [List.mem_singleton.1 hn']
    exact hn

/-- A path that is not below another has no key below that of the other. -/
theorem keyOf_ne_nameOf (hb : Text.Borderless sep.toList) (hsep : sep ≠ "") (hp : WellNamed sep p)
    (hq : WellNamed sep q) (hp0 : p ≠ []) (hpq : ¬ p <+: q) (x : String) :
    keyOf sep q ≠ nameOf sep (keyOf sep p) x := by
  intro h
  have hkey : keyOf sep p ≠ "" := keyOf_ne_empty hsep hp0 hp.ne_empty
  by_cases hx : x = ""
  · rw [hx, nameOf_empty] at h
    have hq0 : q ≠ [] := by
      rintro rfl
      exact hkey h.symm
    have hsame := keyOf_injective hb hsep hp.openable hq.openable hp0 hq0 h.symm
    exact hpq (hsame ▸ List.prefix_rfl)
  · rw [nameOf_of_ne hkey hx] at h
    exact hpq (isPrefix_of_keyOf hb hsep hp.openable hq.openable hp0 h)

end Parsing

/-! ### When paths can be told apart -/

namespace Markup

variable {m : Markup}

theorem pathSep_ne_empty (hm : m.fault? = none) : m.pathSep ≠ "" := by
  intro h
  unfold fault? at hm
  split at hm
  · cases hm
  · rw [if_pos (by simp [h])] at hm
    cases hm

/-- If the separator does not overlap itself, the only different paths with one key are the empty
one and that of a single empty name. -/
theorem keyOf_eq_iff (hm : m.fault? = none) (hb : Text.Borderless m.pathSep.toList)
    {p q : List String} (hp : Parsing.Openable m.pathSep p) (hq : Parsing.Openable m.pathSep q)
    (hpq : p ≠ q) : Parsing.keyOf m.pathSep p = Parsing.keyOf m.pathSep q ↔
      p = [] ∧ q = [""] ∨ p = [""] ∧ q = [] := by
  have hsep := pathSep_ne_empty hm
  constructor
  · intro h
    by_cases hp0 : p = []
    · subst hp0
      have hq0 := Parsing.keyOf_eq_empty hsep h.symm
      exact .inl ⟨rfl, hq0.resolve_left (Ne.symm hpq)⟩
    · by_cases hq0 : q = []
      · subst hq0
        exact .inr ⟨(Parsing.keyOf_eq_empty hsep h).resolve_left hp0, rfl⟩
      · exact absurd (Parsing.keyOf_injective hb hsep hp hq hp0 hq0 h) hpq
  · rintro (⟨rfl, rfl⟩ | ⟨rfl, rfl⟩) <;> simp [Parsing.keyOf]

/-- If the separator overlaps itself, there are different paths with one key, without empty
names. -/
theorem exists_keyOf_eq (hm : m.fault? = none) (hborder : ¬ Text.Borderless m.pathSep.toList) :
    ∃ p q, Parsing.Openable m.pathSep p ∧ Parsing.Openable m.pathSep q ∧
      (∀ n ∈ p ++ q, n ≠ "") ∧ Parsing.keyOf m.pathSep p = Parsing.keyOf m.pathSep q ∧ p ≠ q := by
  obtain ⟨a, b, a', b', hfree, hne, hjoined⟩ :=
    Text.exists_joined_of_border (Parsing.toList_ne_nil (pathSep_ne_empty hm)) hborder
  have hopen : ∀ s t : List Char, s ∈ [a, b, a', b'] → t ∈ [a, b, a', b'] →
      Parsing.Openable m.pathSep [String.ofList s, String.ofList t] ∧
        ∀ n ∈ [String.ofList s, String.ofList t], n ≠ "" := by
    intro s t hs ht
    simp [Parsing.Openable, ← Bool.not_eq_true, Text.occurs_iff, hfree s hs, hfree t ht]
  have hab := hopen a b (by simp) (by simp)
  have hab' := hopen a' b' (by simp) (by simp)
  refine ⟨[String.ofList a, String.ofList b], [String.ofList a', String.ofList b'], hab.1, hab'.1,
    fun n hn => ?_, ?_, fun hpaths => ?_⟩
  · rcases List.mem_append.1 hn with hn | hn
    · exact hab.2 n hn
    · exact hab'.2 n hn
  · apply String.toList_injective
    simpa [Parsing.keyOf] using hjoined
  · apply hne
    simpa using congrArg String.toList (List.cons.inj hpaths).1

/-- **When paths can be told apart.**  In a markup that can be used, different paths of names that
are not empty have different keys just if the separator does not overlap itself.  If it does not,
the only other paths with one key are the empty one and that of a single empty name. -/
theorem keyOf_injective_iff (hm : m.fault? = none) :
    (Text.Borderless m.pathSep.toList ↔
      ∀ p q, Parsing.Openable m.pathSep p → Parsing.Openable m.pathSep q →
        (∀ n ∈ p ++ q, n ≠ "") → Parsing.keyOf m.pathSep p = Parsing.keyOf m.pathSep q → p = q) ∧
    (Text.Borderless m.pathSep.toList →
      ∀ p q, Parsing.Openable m.pathSep p → Parsing.Openable m.pathSep q → p ≠ q →
        (Parsing.keyOf m.pathSep p = Parsing.keyOf m.pathSep q ↔
          p = [] ∧ q = [""] ∨ p = [""] ∧ q = [])) := by
  refine ⟨⟨fun hb p q hp hq hnames h => ?_, fun hinj => ?_⟩,
    fun hb p q hp hq hpq => keyOf_eq_iff hm hb hp hq hpq⟩
  · by_contra hpq
    -- the other paths with one key have an empty name
    rcases (keyOf_eq_iff hm hb hp hq hpq).1 h with ⟨rfl, rfl⟩ | ⟨rfl, rfl⟩ <;> simp at hnames
  · by_contra hborder
    obtain ⟨p, q, hp, hq, hnames, hkeys, hpq⟩ := exists_keyOf_eq hm hborder
    exact hpq (hinj p q hp hq hnames hkeys)

/-- One slash does not overlap itself, so a row in a page and a page in a row have different
keys. -/
theorem keyOf_injective_iff_marks : marks.fault? = none ∧
    Parsing.keyOf marks.pathSep ["page", "row"] ≠ Parsing.keyOf marks.pathSep ["row", "page"] := by
  have hopen : ∀ p : List String, p = ["page", "row"] ∨ p = ["row", "page"] →
      Parsing.Openable marks.pathSep p := by
    rintro p (rfl | rfl) <;> exact fun n hn => by revert n; decide
  obtain ⟨hiff, -⟩ := keyOf_injective_iff (m := marks) rfl
  refine ⟨rfl, fun hkeys => ?_⟩
  have hpaths := hiff.1 (Text.borderless_singleton '/') _ _ (hopen _ (.inl rfl))
    (hopen _ (.inr rfl)) (by decide) hkeys
  revert hpaths
  decide

/-- The markup by first characters with two slashes between the names of a path. -/
def slashes : Markup := { marks with pathSep := "//" }

/-- The names `a/` and `b`, and `a` and `/b`, are joined by two slashes to the same key.  What is
written under either path ends up in one template. -/
theorem keyOf_not_injective_slashes : slashes.fault? = none ∧
    Parsing.Openable slashes.pathSep ["a/", "b"] ∧ Parsing.Openable slashes.pathSep ["a", "/b"] ∧
    Parsing.keyOf slashes.pathSep ["a/", "b"] = Parsing.keyOf slashes.pathSep ["a", "/b"] ∧
    ∃ c : Catalog Empty, Catalog.parse [] slashes "page"
      ⟨["<!a/", "<!b", "one", ">b", ">a/", "<!a", "<!/b", "two", ">/b", ">a"], none⟩ = (c, none) ∧
    c.map (fun e => (e.1, e.2.name, e.2.fragments)) =
      [("a///b", "page//a///b", [Utf8.encode "onetwo".toList])] :=
  ⟨rfl, fun n hn => by revert n; decide, fun n hn => by revert n; decide, by decide, _, rfl, rfl⟩

end Markup

end Stencil
