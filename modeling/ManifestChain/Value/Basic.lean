import ManifestChain.Calendar.Timestamp
import ManifestChain.Number.Binary64
import ManifestChain.Translator

/-!
# Values

A rendered child may be any value: plain data as a document holds it, a mapping that cannot be
written to, an object that renders to a manifest, a product of this library, or an object nothing
is known of. Mappings keep the order of their entries.
-/

namespace ManifestChain

/-- Which object a value is, where that can be seen. The containers and dates of one document are
numbered as they are read, and two occurrences with one number are one object; a value without a
number is an object of its own. Marks decide nothing but where a written document refers back. -/
abbrev Mark := Option Nat

/-- A value. Two keys of one mapping, and two items of one set, are never equal. -/
inductive Value where
  | null
  | bool (b : Bool)
  | int (n : Int)
  | float (x : Binary64)
  | text (t : Text)
  | bytes (b : List UInt8)
  | list (mark : Mark) (items : List Value)
  | tuple (items : List Value)
  | set (mark : Mark) (items : List Value)
  | map (mark : Mark) (entries : List (Value × Value))
  /-- A mapping that cannot be written to. -/
  | view (entries : List (Value × Value))
  | date (mark : Mark) (d : Date)
  | timestamp (mark : Mark) (t : Timestamp)
  /-- An object that nothing is known of. -/
  | foreign
  /-- An object that is known to render to a manifest, and by nothing else. -/
  | rendering (manifest : Value)
  /-- A child wrapped in a named template. As in the other records, the fields may hold anything. -/
  | templateRecord (name : Value) (labels : List (Value × Value)) (payload : Value)
  /-- An application made of templates. -/
  | application (name : Value) (selector : List (Value × Value)) (templates : List Value)
  /-- A child recognized as a deployment. -/
  | deploymentChild (manifest containers : Value)
  /-- A child recognized as a service. -/
  | serviceChild (manifest : Value)
  /-- A child that is neither. -/
  | otherChild (value reason : Value)
  | translator (t : Translator)
  /-- A translator that returns one value whatever it is given. -/
  | constant (result : Value)

/-- The entries of a mapping, in order. -/
abbrev Entries := List (Value × Value)

instance : Coe String Value := ⟨fun s => .text s⟩

namespace Value

instance : Inhabited Value := ⟨.null⟩

/-- A template as wrapping makes it, with bytes for its payload. -/
@[match_pattern] abbrev template (name : Value) (labels : Entries) (payload : List UInt8) : Value :=
  .templateRecord name labels (.bytes payload)

/-- A list that is an object of its own. -/
def ofList (items : List Value) : Value := .list none items

/-- A mapping that is an object of its own. -/
def ofEntries (entries : Entries) : Value := .map none entries

/-- The word for the kind of a value in messages. -/
def typeName : Value → Text
  | null => "NoneType"
  | bool _ => "bool"
  | int _ => "int"
  | float _ => "float"
  | text _ => "str"
  | bytes _ => "bytes"
  | list _ _ => "list"
  | tuple _ => "tuple"
  | set _ _ => "set"
  | map _ _ => "dict"
  | view _ => "mappingproxy"
  | date _ _ => "date"
  | timestamp _ _ => "datetime"
  | foreign => "object"
  | rendering _ => "Stub"
  | templateRecord _ _ _ => "ResourceTemplate"
  | application _ _ _ => "WrappedApplication"
  | deploymentChild _ _ => "DeploymentChild"
  | serviceChild _ => "ServiceChild"
  | otherChild _ _ => "OpaqueChild"
  | translator t => t.typeName
  | constant _ => "Constant"

/-- The entries of a mapping, writable or not. -/
def entries? : Value → Option Entries
  | map _ entries => some entries
  | view entries => some entries
  | _ => none

def isMapping (v : Value) : Bool := v.entries?.isSome

/-- Whether a value counts as true: not null, not zero and not empty. -/
def isTruthy : Value → Bool
  | null => false
  | bool b => b
  | int n => n != 0
  | float x => !x.isZero
  | text t => !t.isEmpty
  | bytes b => !b.isEmpty
  | list _ items => !items.isEmpty
  | tuple items => !items.isEmpty
  | set _ items => !items.isEmpty
  | map _ entries => !entries.isEmpty
  | view entries => !entries.isEmpty
  | _ => true

theorem isTruthy_list {items : List Value} (mark : Mark) (h : items ≠ []) :
    (list mark items).isTruthy = true := by
  rw [isTruthy, List.isEmpty_eq_false_iff.mpr h]
  rfl

/-- The items that a value yields one after the other: those of a sequence or a set, the keys of a
mapping, the code points of a text, the numbers of bytes. Other values yield nothing at all. -/
def items? : Value → Option (List Value)
  | list _ items => some items
  | tuple items => some items
  | set _ items => some items
  | map _ entries => some (entries.map Prod.fst)
  | view entries => some (entries.map Prod.fst)
  | text t => some (t.map fun c => text [c])
  | bytes b => some (b.map fun n => int n.toNat)
  | _ => none

/-- Whether a value is an integer in the wider sense, which takes in the two truth values. -/
def asInt? : Value → Option Int
  | bool b => some (if b then 1 else 0)
  | int n => some n
  | _ => none

end Value

/-- The value at a key that is a text. -/
def Entries.get? (entries : Entries) (key : Text) : Option Value :=
  match entries with
  | [] => none
  | (.text k, v) :: rest => if k = key then some v else get? rest key
  | _ :: rest => get? rest key

namespace Value

/-- The value that a mapping has at a text, null if it has none. -/
def field (entries : Entries) (key : Text) : Value := (entries.get? key).getD .null

end Value

end ManifestChain
