import ManifestChain.Fault
import ManifestChain.Value.Equality

/-!
# Parts of values

Items are found by index and entries by key; an index below zero counts from the end. Lists and
mappings can be written to, other values cannot, though a part of one may be such a container:
`updateAt` changes a value along a path of indices and keys.
-/

namespace ManifestChain

namespace Value

/-- The place of an index in a sequence of a length. -/
def place (length : Nat) (index : Value) : Except Fault Nat :=
  match index.asInt? with
  | none => .error .wrongKind
  | some i =>
    let p := if i < 0 then i + length else i
    if 0 ≤ p ∧ p < length then .ok p.toNat else .error .indexOutOfRange

def itemAt (items : List Value) (index : Value) : Except Fault Value := do
  let p ← place items.length index
  match items[p]? with
  | some x => return x
  | none => throw .indexOutOfRange

def entryAt (entries : Entries) (key : Value) : Except Fault Value :=
  if key.isHashable then
    match entries.valueAt? key with
    | some x => .ok x
    | none => .error .missingKey
  else .error .wrongKind

/-- The part of a value at an index or a key. -/
def partAt (v index : Value) : Except Fault Value :=
  match v with
  | list _ items => itemAt items index
  | tuple items => itemAt items index
  | text t => itemAt (t.map fun c => text [c]) index
  | bytes b => itemAt (b.map fun n => int n.toNat) index
  | map _ entries => entryAt entries index
  | view entries => entryAt entries index
  | _ => .error .wrongKind

/-- A value with one of its parts changed in place; the part is known to be there. -/
def withPart (v index part : Value) : Except Fault Value :=
  match v with
  | list mark items => do return list mark (items.set (← place items.length index) part)
  | tuple items => do return tuple (items.set (← place items.length index) part)
  | map mark entries => .ok (map mark (Entries.put entries index part))
  | view entries => .ok (view (Entries.put entries index part))
  | _ => .error .wrongKind

/-- A value with a part written, which a mapping need not have had. -/
def assign (part : Value) (index v : Value) : Except Fault Value :=
  match v with
  | list mark items => do return list mark (items.set (← place items.length index) part)
  | map mark entries =>
    if index.isHashable then .ok (map mark (Entries.put entries index part)) else .error .wrongKind
  | _ => .error .wrongKind

/-- A value with a part taken out. -/
def remove (index v : Value) : Except Fault Value :=
  match v with
  | list mark items => do return list mark (items.eraseIdx (← place items.length index))
  | map mark entries => do
    let _ ← entryAt entries index
    return map mark (Entries.without entries index)
  | _ => .error .wrongKind

/-- A value changed at the end of a path by an operation on the last step. -/
def updateAt (change : Value → Value → Except Fault Value) : List Value → Value → Except Fault Value
  | [], _ => .error .indexOutOfRange
  | [index], v => change index v
  | index :: rest, v => do
    let part ← v.partAt index
    v.withPart index (← updateAt change rest part)

/-- The number of items of a container, a text or bytes. -/
def size (v : Value) : Except Fault Nat :=
  match v.items? with
  | some items => .ok items.length
  | none => .error .wrongKind

/-- An empty container of the same kind. -/
def cleared : Value → Except Fault Value
  | list mark _ => .ok (list mark [])
  | set mark _ => .ok (set mark [])
  | map mark _ => .ok (map mark [])
  | _ => .error .noSuchMember

end Value

end ManifestChain
