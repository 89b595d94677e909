import ManifestChain.Number.Layout
import ManifestChain.Text.Base64
import ManifestChain.Value.Display
import ManifestChain.Yaml.Tag

/-!
# What a document is written from

A value becomes a tree of tagged texts, sequences and mappings. Plain data has a tree; objects and
mappings that cannot be written to have none. A part with a mark that comes up again is in the tree
once: it is written under an anchor, and referred to from then on.
-/

namespace ManifestChain.Yaml

inductive Tree where
  /-- A text under a tag; a literal one is written in lines of its own. -/
  | scalar (mark : Mark) (tag : Tag) (content : Text) (isLiteral : Bool)
  | sequence (mark : Mark) (items : List Tree)
  | mapping (mark : Mark) (tag : Tag) (entries : List (Tree × Tree))
  /-- The part with a mark that came up before. -/
  | again (mark : Nat)

namespace Tree

/-- Numbers in documents: a single digit carries a fraction before a power of ten, or it would be
read as a text. -/
def numberLayout : Layout := ⟨true, ".inf", ".nan"⟩

def ofText (tag : Tag) (content : Text) : Tree := scalar none tag content false

/-- A step of making a tree, given the marks that came up so far. -/
abbrev Making := StateT (List Nat) (Except Fault)

/-- The tree of a part with a mark, made at its first occurrence. -/
def once (mark : Mark) (make : Making Tree) : Making Tree := do
  match mark with
  | none => make
  | some n =>
    if (← get).contains n then return again n
    modify (n :: ·)
    make

mutual

/-- The tree of a value; a fault for the first part in it that has none. -/
def make : Value → Making Tree
  | .null => return ofText .null "null"
  | .bool b => return ofText .bool (if b then "true" else "false")
  | .int n => do return ofText .int (← Value.showInt n)
  | .float x => return ofText .float (numberLayout.number x)
  | .text t => return ofText .text t
  | .bytes b => return scalar none .binary (Text.ofChars (Base64.encodeLines b)) true
  | .list mark items => once mark do return sequence mark (← makeAll items)
  | .tuple items => do return sequence none (← makeAll items)
  | .set mark items => once mark do return mapping mark .set (← makeKeys items)
  | .map mark entries => once mark do return mapping mark .map (← makeEntries entries)
  | .date mark d => once mark do return scalar mark .timestamp d.text false
  | .timestamp mark t => once mark do return scalar mark .timestamp (t.text " ") false
  | _ => throw .malformedYaml

def makeAll : List Value → Making (List Tree)
  | [] => return []
  | v :: vs => do
    let t ← make v
    return t :: (← makeAll vs)

/-- The items of a set as keys without values. -/
def makeKeys : List Value → Making (List (Tree × Tree))
  | [] => return []
  | v :: vs => do
    let t ← make v
    return (t, ofText .null "null") :: (← makeKeys vs)

def makeEntries : List (Value × Value) → Making (List (Tree × Tree))
  | [] => return []
  | (k, v) :: es => do
    let kt ← make k
    let vt ← make v
    return (kt, vt) :: (← makeEntries es)

end

def ofValue (v : Value) : Except Fault Tree := do
  let (t, _) ← (make v).run []
  return t

mutual

/-- Some marks, and those that a tree refers to again, in the order of the first references. -/
def references : Tree → List Nat → List Nat
  | scalar _ _ _ _, marks => marks
  | sequence _ items, marks => referencesOfItems items marks
  | mapping _ _ entries, marks => referencesOfEntries entries marks
  | again n, marks => if marks.contains n then marks else marks ++ [n]

def referencesOfItems : List Tree → List Nat → List Nat
  | [], marks => marks
  | t :: ts, marks => referencesOfItems ts (references t marks)

def referencesOfEntries : List (Tree × Tree) → List Nat → List Nat
  | [], marks => marks
  | (k, v) :: es, marks => referencesOfEntries es (references v (references k marks))

end

/-- The marks that need an anchor, in the order of their names. -/
def anchored (t : Tree) : List Nat := t.references []

end Tree

end ManifestChain.Yaml
