import Mathlib.Data.List.Infix
import Stencil.IndexMap
import Stencil.Proofs.Text.Pieces

/-!
# Tags

A tag is a name without blanks, behind which the word for optional placeholders may stand after a
blank.  One name is kept for fields that are for nothing; what stands behind it does not matter.

## Main definitions

* `IndexTag.Means` — the rule for tags.

## Main results

* `IndexTag.ofText_eq_ok_iff` — tags are read by the rule, and others are not read.
* `IndexTag.means_unique` — a tag says one thing only.
-/

namespace Stencil
namespace IndexTag

/-- The text can be the name of a placeholder in a tag. -/
structure IsName (name : String) : Prop where
  /-- It is not empty. -/
  ne_empty : name ≠ ""
  /-- It is not the name of fields that are for nothing. -/
  ne_ignored : name ≠ ignoredText
  /-- It has no blank in it. -/
  blank : ' ' ∉ name.toList

/-- What a tag says. -/
inductive Means : (tag : String) → IndexTag → Prop where
  /-- The field is for nothing. -/
  | ignored : Means ignoredText .ignored
  /-- It is, whatever the tag says besides. -/
  | ignoredWith (rest : String) : Means (ignoredText ++ " " ++ rest) .ignored
  /-- The field is for a placeholder that the template must have. -/
  | mandatory {name : String} (h : IsName name) : Means name (.placeholder name false)
  /-- The field is for a placeholder that the template may lack. -/
  | optional {name : String} (h : IsName name) :
    Means (name ++ " " ++ optionalText) (.placeholder name true)

/-- What is read from a name and what may stand behind it. -/
def ofParts (tag name : String) (option : Option String) : Except IndexMapError IndexTag :=
  if name.isEmpty then .error (.tagWithoutName tag)
  else if name = ignoredText then .ok .ignored
  else
    match option with
    | none => .ok (.placeholder name false)
    | some option =>
      if option = optionalText then .ok (.placeholder name true)
      else .error (.unknownOption option tag)

theorem ofText_of_cut?_eq_none {tag : String} (h : Text.cut? [' '] tag.toList = none) :
    ofText tag = ofParts tag tag none := by
  rw [ofText, h]
  rfl

theorem ofText_of_cut? {tag : String} {before after : List Char}
    (h : Text.cut? [' '] tag.toList = some (before, after)) :
    ofText tag = ofParts tag (String.ofList before) (some (String.ofList after)) := by
  rw [ofText, h]
  rfl

/-- A tag without a blank is a name. -/
theorem ofText_of_not_mem {name : String} (h : ' ' ∉ name.toList) :
    ofText name = ofParts name name none :=
  ofText_of_cut?_eq_none (Text.cut?_eq_none_iff.2 (mt (List.singleton_infix_iff _ _).1 h))

/-- A tag with a blank has its name before the first one. -/
theorem ofText_append {name : String} (h : ' ' ∉ name.toList) (option : String) :
    ofText (name ++ " " ++ option) = ofParts (name ++ " " ++ option) name (some option) := by
  have hcut := Text.cut?_append (Text.borderless_singleton ' ') (by simp)
    (mt (List.singleton_infix_iff _ _).1 h) option.toList
  have htag : (name ++ " " ++ option).toList = name.toList ++ [' '] ++ option.toList := by
    simp only [String.toList_append]
    rfl
  rw [← htag] at hcut
  rw [ofText_of_cut? hcut, String.ofList_toList, String.ofList_toList]

/-- Every text is a name without blanks, or such a name, a blank and a rest. -/
theorem exists_name (tag : String) : ' ' ∉ tag.toList ∨
    ∃ name option, ' ' ∉ name.toList ∧ tag = name ++ " " ++ option := by
  cases hcut : Text.cut? [' '] tag.toList with
  | none => exact .inl (mt (List.singleton_infix_iff _ _).2 (Text.cut?_eq_none_iff.1 hcut))
  | some parts =>
    obtain ⟨before, after⟩ := parts
    refine .inr ⟨String.ofList before, String.ofList after, ?_, ?_⟩
    · have hfree := (Text.cut?_eq_some_iff.1 hcut).free_before (List.cons_ne_nil ' ' [])
      rw [String.toList_ofList]
      exact mt (List.singleton_infix_iff _ _).2 hfree
    · rw [← String.toList_inj, Text.cut?_eq_some hcut]
      simp only [String.toList_append, String.toList_ofList]
      rfl

/-- **Tags are read by the rule**, and what does not follow it is not read. -/
theorem ofText_eq_ok_iff {tag : String} {what : IndexTag} :
    ofText tag = .ok what ↔ Means tag what := by
  constructor
  · intro h
    rcases exists_name tag with hblank | ⟨name, option, hblank, rfl⟩
    · rw [ofText_of_not_mem hblank, ofParts] at h
      split at h
      · cases h
      · next hne =>
        split at h
        · next hignored =>
          cases h
          exact hignored ▸ .ignored
        · next hignored =>
          cases h
          exact .mandatory ⟨mt String.isEmpty_iff.2 hne, hignored, hblank⟩
    · rw [ofText_append hblank, ofParts] at h
      split at h
      · cases h
      · next hne =>
        split at h
        · next hignored =>
          cases h
          exact hignored ▸ .ignoredWith option
        · next hignored =>
          split at h
          · next hoption =>
            cases h
            exact hoption ▸ .optional ⟨mt String.isEmpty_iff.2 hne, hignored, hblank⟩
          · cases h
  · intro h
    cases h with
    | ignored => rfl
    | ignoredWith rest =>
      rw [ofText_append (by decide)]
      rfl
    | mandatory h =>
      rw [ofText_of_not_mem h.blank, ofParts, if_neg (mt String.isEmpty_iff.1 h.ne_empty),
        if_neg h.ne_ignored]
    | optional h =>
      rw [ofText_append h.blank, ofParts, if_neg (mt String.isEmpty_iff.1 h.ne_empty),
        if_neg h.ne_ignored]
      rfl

/-- A tag says one thing only. -/
theorem means_unique {tag : String} {what what' : IndexTag} (h : Means tag what)
    (h' : Means tag what') : what = what' :=
  Except.ok.inj ((ofText_eq_ok_iff.2 h).symm.trans (ofText_eq_ok_iff.2 h'))

end IndexTag
end Stencil
