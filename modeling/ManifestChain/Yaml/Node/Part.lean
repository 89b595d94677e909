import ManifestChain.Value.Equality
import ManifestChain.Yaml.Node.Merge
import ManifestChain.Yaml.Node.Scalar

/-!
# From nodes to the parts of a value

The tag of a node decides what it becomes part of. A document is read level by level: a scalar is
read where it is first met, a container is begun there and its content is read with its level. So of
several faults the outermost counts, and of those the first in the document, and a container is no
key whatever it holds. Every node is read once; what refers to it again gets the same part.
-/

namespace ManifestChain.Yaml

/-- What a node becomes, with the nodes in it given by their numbers. -/
inductive Part where
  | scalar (value : Value)
  /-- The word for not-a-number, which stands for the same value everywhere. -/
  | nan
  | list (items : List Nat)
  /-- A list of pairs. -/
  | pairs (items : List (Nat × Nat))
  | map (entries : List (Nat × Nat))
  | set (entries : List (Nat × Nat))

namespace Part

/-- The container of a tag, empty. -/
def container? : Tag → Option Part
  | .list => some (.list [])
  | .orderedMap => some (.pairs [])
  | .pairs => some (.pairs [])
  | .map => some (.map [])
  | .set => some (.set [])
  | _ => none

def isKey : Part → Bool
  | scalar _ => true
  | nan => true
  | _ => false

/-- Whether two keys are the same: they have equal values, or are the word for not-a-number. -/
def isSameKey : Part → Part → Bool
  | scalar v, scalar w => v.equal w
  | nan, nan => true
  | _, _ => false

end Part

/-- The text of a node that stands for a scalar: a mapping does by its value key. -/
def Nodes.scalarText? (nodes : Nodes) : Nat → Nat → Option Text
  | 0, _ => none
  | fuel + 1, n =>
    match nodes.content? n with
    | some (.scalar t) => some t
    | some (.mapping entries) =>
      match entries.find? fun e => nodes.tag? e.1 = some .valueKey with
      | some (_, v) => scalarText? nodes fuel v
      | none => none
    | _ => none

/-- The state of reading a document: its nodes, how many entries they had at the beginning, what
became of them so far, and the containers whose content is still to be read, the last one first. -/
structure Builder where
  nodes : Nodes
  entryCount : Nat
  parts : Array (Option Part)
  pending : List Nat

/-- A step of reading a document. -/
abbrev Building := StateT Builder (Except Fault)

namespace Building

def setPart (n : Nat) (part : Part) : Building Unit :=
  modify fun b => { b with parts := b.parts.setIfInBounds n (some part) }

def part? (n : Nat) : Building (Option Part) := do return ((← get).parts[n]?).join

def scalarPart (nodes : Nodes) (n : Nat) (node : Node) : Except Fault Part :=
  let isItself := match node.content with
    | .scalar _ => true
    | _ => false
  match nodes.scalarText? (nodes.size + 1) n with
  | none => .error .malformedYaml
  | some t =>
    if node.tag = .float && Scalar.isNanWord t then .ok .nan
    else (Scalar.value n isItself node.tag t).map .scalar

/-- Reads a node that is met: a scalar at once, a container later. -/
def visit (n : Nat) : Building Unit := do
  let b ← get
  match b.nodes[n]?, (b.parts[n]?).join with
  | some node, none =>
    match Part.container? node.tag with
    | some part =>
      setPart n part
      modify fun b => { b with pending := n :: b.pending }
    | none =>
      match scalarPart b.nodes n node with
      | .ok part => setPart n part
      | .error f => throw f
  | _, _ => return

def pair (n : Nat) : Building (Nat × Nat) := do
  match (← get).nodes.content? n with
  | some (.mapping [(k, v)]) =>
    visit k
    visit v
    return (k, v)
  | _ => throw .malformedYaml

/-- Whether a node is the same key as another. -/
def isSameKey (parts : Array (Option Part)) (n m : Nat) : Bool :=
  n = m ||
    match parts[n]?, parts[m]? with
    | some (some a), some (some b) => a.isSameKey b
    | _, _ => false

/-- Entries with one more put at its key. A key that is the same stays as it is, where it is. -/
def putEntry (parts : Array (Option Part)) (k v : Nat) : List (Nat × Nat) → List (Nat × Nat)
  | [] => [(k, v)]
  | (l, w) :: rest =>
    if isSameKey parts l k then (l, v) :: rest else (l, w) :: putEntry parts k v rest

/-- Reads the entries of a mapping, each key before its value, and puts them in turn. -/
def readEntries (n : Nat) : Building (List (Nat × Nat)) := do
  match (← get).nodes.content? n with
  | some (.mapping _) =>
    let b ← get
    let nodes ← b.nodes.resolveMerges b.entryCount n
    modify fun b => { b with nodes }
    (nodes.entries n).foldlM
      (fun sofar (k, v) => do
        visit k
        if !((← part? k).any Part.isKey) then throw .malformedYaml
        visit v
        return putEntry (← get).parts k v sofar) []
  | _ => throw .malformedYaml

def items (n : Nat) : Building (List Nat) := do
  match (← get).nodes.content? n with
  | some (.sequence items) => return items
  | _ => throw .malformedYaml

/-- Reads the content of a container that has begun. -/
def readContent (n : Nat) : Building Unit := do
  match ← part? n with
  | some (.list _) =>
    let items ← items n
    items.forM visit
    setPart n (.list items)
  | some (.pairs _) => setPart n (.pairs (← (← items n).mapM pair))
  | some (.map _) => setPart n (.map (← readEntries n))
  | some (.set _) => setPart n (.set (← readEntries n))
  | _ => return

/-- Reads the containers that have begun, level by level, at most `fuel` levels. -/
def finish : Nat → Building Unit
  | 0 => return
  | fuel + 1 => do
    let level := (← get).pending.reverse
    if !level.isEmpty then
      modify fun b => { b with pending := [] }
      level.forM readContent
      finish fuel

end Building

/-- What the nodes of a document become. -/
def Document.parts (d : Document) : Except Fault (Array (Option Part)) := do
  let read : Building Unit := do
    Building.visit d.root
    Building.finish (d.nodes.size + 1)
  let (_, b) ← read.run ⟨d.nodes, d.nodes.entryCount, Array.replicate d.nodes.size none, []⟩
  return b.parts

end ManifestChain.Yaml
