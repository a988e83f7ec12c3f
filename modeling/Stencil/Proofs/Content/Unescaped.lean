import Mathlib.Data.List.Basic
import Mathlib.Data.Set.Operations
import Stencil.Content.Html

/-!
# Reading escaped text

A text that was escaped for HTML can be read again.  All entities start with an ampersand, but none
of them is the start of another; and since ampersands are escaped themselves, every one of them in
an escaped text starts an entity.  What is lost is only that a NUL character was one, as the
replacement character is written for it.

## Main definitions

* `Html.replaceNul` — the character that is left of one.
* `Html.unescapeChars`, `Html.unescape` — a text with its entities read.

## Main results

* `Html.unescape_escape` — reading undoes escaping, but for the NUL character.
* `Html.escape_eq_escape_iff` — which texts are escaped alike.
-/

namespace Stencil.Html

/-- The character, or the replacement character for NUL. -/
def replaceNul (c : Char) : Char := if c = '\x00' then '\ufffd' else c

/-- A text with the character that it stands for in place of each entity, by characters.  An
ampersand that starts no entity stays. -/
def unescapeChars : List Char → List Char
  | '&' :: 'l' :: 't' :: ';' :: s => '<' :: unescapeChars s
  | '&' :: 'g' :: 't' :: ';' :: s => '>' :: unescapeChars s
  | '&' :: 'a' :: 'm' :: 'p' :: ';' :: s => '&' :: unescapeChars s
  | '&' :: 'q' :: 'u' :: 'o' :: 't' :: ';' :: s => '"' :: unescapeChars s
  | '&' :: 'a' :: 'p' :: 'o' :: 's' :: ';' :: s => '\'' :: unescapeChars s
  | c :: s => c :: unescapeChars s
  | [] => []

/-- A text with the character that it stands for in place of each entity. -/
def unescape (s : String) : String := String.ofList (unescapeChars s.toList)

theorem unescapeChars_cons {c : Char} (hc : c ≠ '&') (s : List Char) :
    unescapeChars (c :: s) = c :: unescapeChars s := by
  rw [unescapeChars.eq_def]
  split <;> simp_all

/-- An escaped character is read as one, whatever stands behind it. -/
theorem unescapeChars_escapeChar (c : Char) (s : List Char) :
    unescapeChars (escapeChar c ++ s) = replaceNul c :: unescapeChars s := by
  unfold escapeChar
  repeat' split
  any_goals
    subst c
    rfl
  -- an ampersand is written as an entity, so one that stands for itself does not come up
  next hamp _ _ hnul =>
    rw [List.singleton_append, unescapeChars_cons hamp, replaceNul, if_neg hnul]

theorem unescapeChars_escapeChars (s : List Char) :
    unescapeChars (escapeChars s) = s.map replaceNul := by
  induction s with
  | nil => rfl
  | cons c s ih => rw [escapeChars_cons, unescapeChars_escapeChar, ih, List.map_cons]

/-- Reading undoes escaping, but for the NUL character. -/
theorem unescape_escape (s : String) : unescape (escape s) = s.map replaceNul := by
  rw [unescape, escape, String.toList_ofList, unescapeChars_escapeChars, ← String.toList_map,
    String.ofList_toList]

theorem escapeChar_replaceNul (c : Char) : escapeChar (replaceNul c) = escapeChar c := by
  unfold replaceNul
  split
  · next hnul =>
    rw [hnul]
    decide
  · rfl

/-- A NUL character is escaped as the replacement character is. -/
theorem escape_map_replaceNul (s : String) : escape (s.map replaceNul) = escape s := by
  have hchars : escapeChars (s.toList.map replaceNul) = escapeChars s.toList := by
    rw [escapeChars, List.flatMap_map]
    exact List.flatMap_congr fun c _ => escapeChar_replaceNul c
  rw [escape, String.toList_map, hchars, escape]

theorem map_replaceNul {s : String} (hs : '\x00' ∉ s.toList) : s.map replaceNul = s := by
  rw [← String.toList_inj, String.toList_map]
  refine List.map_congr_left (fun c hc => ?_) |>.trans (List.map_id _)
  exact if_neg fun hnul : c = '\x00' => hs (hnul ▸ hc)

/-- The characters that are written as entities. -/
theorem ampersand_prefix_escapeChar_iff (c : Char) :
    ['&'] <+: escapeChar c ↔ c ∈ ['<', '>', '&', '"', '\''] := by
  unfold escapeChar
  repeat' split
  all_goals simp_all [List.cons_prefix_cons, eq_comm]

/-- **Which texts are escaped alike**: those that are equal once each NUL is replaced.  So texts
without NUL can be told apart when they are escaped, although five characters are written with the
same one in front. -/
theorem escape_eq_escape_iff :
    (∀ a b : String, escape a = escape b ↔ a.map replaceNul = b.map replaceNul) ∧
    Set.InjOn escape {s | '\x00' ∉ s.toList} ∧
    ∀ c, ['&'] <+: escapeChar c ↔ c ∈ ['<', '>', '&', '"', '\''] := by
  have halike (a b : String) : escape a = escape b ↔ a.map replaceNul = b.map replaceNul := by
    constructor
    · intro h
      rw [← unescape_escape, h, unescape_escape]
    · intro h
      rw [← escape_map_replaceNul, h, escape_map_replaceNul]
  refine ⟨halike, fun a ha b hb h => ?_, ampersand_prefix_escapeChar_iff⟩
  have hmap := (halike a b).1 h
  rwa [map_replaceNul ha, map_replaceNul hb] at hmap

end Stencil.Html
