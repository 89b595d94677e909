import ManifestChain.Fault
import ManifestChain.Value.Equality

/-!
# Building containers and records

Mappings and sets are built item by item; a key that can be written to is refused. Whatever yields
pairs makes a mapping, so the labels of a template may be given as a sequence of pairs.
-/

namespace ManifestChain

namespace Entries

/-- The entries of pairs put in turn, if every key is hashable. -/
def ofPairs? (pairs : List (Value × Value)) : Except Fault Entries :=
  if pairs.all fun p => p.1.isHashable then .ok (ofPairs pairs) else .error .wrongKind

def pairOf (v : Value) : Except Fault (Value × Value) :=
  match v.items? with
  | some [k, x] => if k.isHashable then .ok (k, x) else .error .wrongKind
  | some _ => .error .badValue
  | none => .error .wrongKind

/-- The entries that a value gives: those of a mapping, or the pairs that it yields. -/
def ofValue (v : Value) : Except Fault Entries :=
  match v.entries? with
  | some entries => .ok entries
  | none => match v.items? with
    | some items => (items.mapM pairOf).map ofPairs
    | none => .error .wrongKind

end Entries

namespace Value

/-- The set of some items, if all are hashable. -/
def setOf (items : List Value) : Except Fault Value :=
  if items.all isHashable then .ok (.set none (distinct items)) else .error .wrongKind

/-- A template whose labels are given in any form. -/
def templateOf (name labels : Value) (payload : List UInt8) : Except Fault Value := do
  return .template name (← Entries.ofValue labels) payload

/-- An application whose selector and templates are given in any form. -/
def applicationOf (name selector templates : Value) : Except Fault Value := do
  let entries ← Entries.ofValue selector
  match templates.items? with
  | some items => return .application name entries items
  | none => throw .wrongKind

end Value

end ManifestChain
