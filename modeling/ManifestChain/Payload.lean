import ManifestChain.Json.Printer
import ManifestChain.Value.Display
import ManifestChain.Value.Rendering

/-!
# Payloads

The payload of a child is the compact JSON text of its manifest in UTF-8, with the keys of every
mapping in ascending order, so it does not depend on the order of entries. All keys have to be
texts: `nonTextKey?` finds the first that is not, before anything is written. Dates are written as
texts, timestamps in universal time.
-/

namespace ManifestChain

/-- A step from a value to a part of it. -/
inductive PathStep where
  | key (key : Text)
  | index (index : Nat)
deriving DecidableEq, Repr

namespace PathStep

/-- A point before a key, brackets around an index. -/
def text : PathStep → Text
  | key k => .scalar '.' :: k
  | index i => "[" ++ Text.ofNat i ++ "]"

end PathStep

/-- A key of a mapping inside a value, by the steps that lead to the mapping. -/
structure KeyPath where
  steps : List PathStep
  key : Value

namespace KeyPath

/-- The path one step further out. -/
def under (step : PathStep) (path : KeyPath) : KeyPath := ⟨step :: path.steps, path.key⟩

/-- The steps, and the key in brackets. -/
def text (path : KeyPath) : Except Fault Text := do
  return path.steps.flatMap PathStep.text ++ "[" ++ (← path.key.quoted) ++ "]"

end KeyPath

namespace Value

mutual

/-- The first key that is no text, in the order of entries and items, each key before its value. -/
def nonTextKey? : Value → Option KeyPath
  | map _ entries => nonTextKeyOfEntries? entries
  | view entries => nonTextKeyOfEntries? entries
  | list _ items => nonTextKeyOfItems? 0 items
  | tuple items => nonTextKeyOfItems? 0 items
  | _ => none

def nonTextKeyOfEntries? : List (Value × Value) → Option KeyPath
  | [] => none
  | (text k, v) :: rest =>
    match nonTextKey? v with
    | some path => some (path.under (.key k))
    | none => nonTextKeyOfEntries? rest
  | (k, _) :: _ => some ⟨[], k⟩

/-- The search among items, the first of which has the given index. -/
def nonTextKeyOfItems? (index : Nat) : List Value → Option KeyPath
  | [] => none
  | v :: rest =>
    match nonTextKey? v with
    | some path => some (path.under (.index index))
    | none => nonTextKeyOfItems? (index + 1) rest

end

/-- Members in ascending order of their keys, or the fault of the first one that has one. -/
def sortedMembers (members : List (Text × Except Fault Json)) :
    Except Fault (List (Text × Json)) :=
  (Json.sortMembers members).mapM fun (k, r) => r.map fun j => (k, j)

mutual

/-- The document that a value is written as. What has no form in one is refused, the first such part
in the order of writing. -/
def document (refuse : SerializationFault → Fault) : Value → Except Fault Json
  | null => .ok .null
  | bool b => .ok (.bool b)
  | int n =>
    if n.natAbs < Numeral.bound then .ok (.int n) else .error (refuse .tooManyDigits)
  | float x => if x.isFinite then .ok (.float x) else .error (refuse .nonFinite)
  | text t => .ok (.text t)
  | list _ items => (documents refuse items).map .array
  | tuple items => (documents refuse items).map .array
  | map _ entries => (sortedMembers (members refuse entries)).map .object
  | date _ d => .ok (.text d.text)
  | timestamp _ t => match t.rfc3339? with
    | some s => .ok (.text s)
    | none => .error .outOfRange
  | v => .error (refuse (.unsupported v.typeName))

def documents (refuse : SerializationFault → Fault) : List Value → Except Fault (List Json)
  | [] => .ok []
  | x :: xs => do
    let j ← document refuse x
    return j :: (← documents refuse xs)

/-- The entries under their keys, each with its outcome. -/
def members (refuse : SerializationFault → Fault) :
    List (Value × Value) → List (Text × Except Fault Json)
  | [] => []
  | (text k, v) :: rest => (k, document refuse v) :: members refuse rest
  | (k, _) :: rest => ([], .error (refuse (.unsupported k.typeName))) :: members refuse rest

end

def manifestPayload (refuse : SerializationFault → Fault) (manifest : Value) :
    Except Fault (List UInt8) := do
  if !manifest.isMapping then throw (refuse (.notManifest manifest.typeName))
  if let some path := manifest.nonTextKey? then throw (refuse (.nonTextKey (← path.text)))
  let json ← document refuse manifest
  match json.print.utf8? with
  | some encoded => return encoded
  | none => throw .unencodable

/-- The payload of a child of a workload; a fault names both. -/
def payload (child workload : Value) (index : Option Int) : Except Fault (List UInt8) := do
  manifestPayload (fun cause => .serialization cause workload index) (← child.manifest)

end Value

end ManifestChain
