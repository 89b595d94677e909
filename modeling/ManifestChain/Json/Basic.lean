import ManifestChain.Value.Basic

/-!
# JSON documents

The tree of a JSON document. Integers and floating point numbers are kept apart, as their texts are.
The keys of an object are distinct and in the order of the document.
-/

namespace ManifestChain

inductive Json where
  | null
  | bool (b : Bool)
  | int (n : Int)
  | float (x : Binary64)
  | text (t : Text)
  | array (items : List Json)
  | object (members : List (Text × Json))

namespace Json

instance : Inhabited Json := ⟨.null⟩

/-- The members with one put at the end, or in the place of one with the same key. -/
def put : List (Text × Json) → Text → Json → List (Text × Json)
  | [], key, value => [(key, value)]
  | (k, v) :: rest, key, value =>
    if k = key then (k, value) :: rest else (k, v) :: put rest key value

/-- The object of members in order, of which a later one replaces an earlier one of the same key. -/
def ofMembers (members : List (Text × Json)) : Json :=
  object (members.foldl (fun kept m => put kept m.1 m.2) [])

mutual

/-- The document as a value, all of it new. -/
def toValue : Json → Value
  | null => .null
  | bool b => .bool b
  | int n => .int n
  | float x => .float x
  | text t => .text t
  | array items => .ofList (toValues items)
  | object members => .ofEntries (toEntries members)

def toValues : List Json → List Value
  | [] => []
  | j :: js => j.toValue :: toValues js

def toEntries : List (Text × Json) → List (Value × Value)
  | [] => []
  | (k, j) :: ms => (.text k, j.toValue) :: toEntries ms

end

/-- Members put into ascending order of their keys, one by one. -/
def insertMember {α : Type} (key : Text) (x : α) : List (Text × α) → List (Text × α)
  | [] => [(key, x)]
  | (k, y) :: rest =>
    if key.le k then (key, x) :: (k, y) :: rest else (k, y) :: insertMember key x rest

def sortMembers {α : Type} : List (Text × α) → List (Text × α)
  | [] => []
  | (k, x) :: rest => insertMember k x (sortMembers rest)

end Json

end ManifestChain
