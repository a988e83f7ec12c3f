import Stencil.Failure

/-!
# Catalogues of templates

Templates that come from a source are kept by their keys.  The key of a template is the path of the
names it is nested in, joined by a separator; that of the outermost template is empty.

## Main definitions

* `Catalog` — templates by key.
* `Catalog.get?`, `Catalog.put` — a template read and stored.
* `Catalog.entries` — what is in a catalogue, by ascending keys.
-/

namespace Stencil

/-- Templates by key. -/
abbrev Catalog (ω : Type) := List (String × Template ω)

/-- A template of a catalogue in short. -/
structure CatalogEntry where
  /-- The key. -/
  key : String
  /-- The name of the template. -/
  name : String
  /-- The names of its placeholders. -/
  placeholders : List String
  deriving DecidableEq, Repr

namespace Catalog

variable {ω : Type}

/-- The template with a key. -/
def get? (c : Catalog ω) (key : String) : Option (Template ω) := c.lookup key

/-- The catalogue with a template stored under a key, in place of the one that was there. -/
def put (c : Catalog ω) (key : String) (t : Template ω) : Catalog ω :=
  match c with
  | [] => [(key, t)]
  | (k, old) :: rest => if k = key then (k, t) :: rest else (k, old) :: put rest key t

@[simp] theorem get?_nil (key : String) : get? ([] : Catalog ω) key = none := rfl

/-- The template stored under a key is read under it. -/
theorem get?_put_self (c : Catalog ω) (key : String) (t : Template ω) :
    (c.put key t).get? key = some t := by
  induction c with
  | nil => simp [put, get?]
  | cons e c ih =>
    obtain ⟨k, old⟩ := e
    by_cases h : k = key
    · simp [put, get?, h]
    · have h' : (key == k) = false := by simp [Ne.symm h]
      simp only [get?] at ih
      simp [put, get?, h, List.lookup_cons, h', ih]

/-- Templates under other keys are as they were. -/
theorem get?_put_of_ne (c : Catalog ω) {key other : String} (t : Template ω) (h : other ≠ key) :
    (c.put key t).get? other = c.get? other := by
  induction c with
  | nil =>
    have h' : (other == key) = false := by simp [h]
    simp [put, get?, List.lookup_cons, h']
  | cons e c ih =>
    obtain ⟨k, old⟩ := e
    simp only [get?] at ih
    by_cases hk : k = key
    · subst hk
      have h' : (other == k) = false := by simp [h]
      simp [put, get?, List.lookup_cons, h']
    · by_cases ho : other = k
      · subst ho; simp [put, get?, hk]
      · have h' : (other == k) = false := by simp [ho]
        simp [put, get?, hk, List.lookup_cons, h', ih]

/-- The keys in ascending order. -/
def byKey {α : Type} (entries : List (String × α)) : List (String × α) :=
  entries.mergeSort fun a b => !decide (b.1 < a.1)

/-- What is in a catalogue, by ascending keys. -/
def entries (c : Catalog ω) : List CatalogEntry :=
  (byKey c).map fun (key, t) => ⟨key, t.name, t.names⟩

end Catalog

end Stencil
