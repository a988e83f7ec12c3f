import Stencil.Yaml.Node
import Stencil.Yaml.Resolve

/-!
# Documents of YAML

A document stands for a data value: plain scalars for what they spell, other scalars for their
texts, sequences for lists and mappings for maps.  A sequence that is a key stands for a tuple; a
mapping cannot be a key.  No key may come twice.

## Main definitions

* `Node.toValue?` — the value of a node.
* `Yaml.read?` — the value of a text.
* `Yaml.reader` — the reader of data.
-/

namespace Stencil.Yaml

/-- A value as a key of a map, if it can be one. -/
def asKey? : Value → Option Value
  | .map _ => none
  | .list items =>
    if items.any (fun | .list _ | .map _ => true | _ => false) then none else some (.tuple items)
  | v => some v

mutual

/-- The value of a node. -/
def Node.toValue? : Node → Option Value
  | .scalar text plain => if plain then resolve text else some (.str (String.ofList text))
  | .sequence items => (toValues? items).map .list
  | .mapping entries => (toEntries? [] entries).map .map

/-- The values of nodes. -/
def toValues? : List Node → Option (List Value)
  | [] => some []
  | n :: rest => do
    let v ← n.toValue?
    let vs ← toValues? rest
    return v :: vs

/-- The entries of a map, after those that are there already. -/
def toEntries? (before : List (Value × Value)) :
    List (Node × Node) → Option (List (Value × Value))
  | [] => some before
  | (k, v) :: rest => do
    let key ← asKey? (← k.toValue?)
    let value ← v.toValue?
    if before.any fun e => e.1.equals key then none
    else toEntries? (before ++ [(key, value)]) rest

end

/-- The value of a text of YAML, if it is one; that of an empty text is nothing. -/
def read? (text : String) : Option Value := do
  let tokens ← Token.ofText? text.toList
  let node ← Node.ofTokens? tokens
  node.toValue?

/-- The reader of data in YAML, which tells of no cause. -/
def reader : DataReader := fun text =>
  match read? text with
  | some v => .ok v
  | none => .error "<yaml error>"

end Stencil.Yaml
