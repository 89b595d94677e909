import ManifestChain.Fault
import ManifestChain.Yaml.Node.Basic

/-!
# Merge keys

A merge key brings the entries of another mapping, or of each mapping of a sequence, into the
mapping that holds it, in front of its own. Of a sequence the last mapping comes first. The mapping
itself is changed, and so are the ones that are merged into it: whatever refers to them later finds
their merge keys resolved.
-/

namespace ManifestChain.Yaml

/-- A change of the nodes of a document. -/
abbrev Merging := StateT Nodes (Except Fault)

namespace Nodes

/-- The entries of a mapping up to its first merge key, what the key brings in, and the entries
after it. -/
def splitAtMerge (nodes : Nodes) :
    List (Nat × Nat) → Option (List (Nat × Nat) × Nat × List (Nat × Nat))
  | [] => none
  | (k, v) :: rest =>
    if nodes.tag? k = some .merge then some ([], v, rest)
    else (splitAtMerge nodes rest).map fun (before, source, after) =>
      ((k, v) :: before, source, after)

/-- The nodes with the value keys among some entries made texts. -/
def setValueKeys (nodes : Nodes) (entries : List (Nat × Nat)) : Nodes :=
  entries.foldl
    (fun nodes e => if nodes.tag? e.1 = some .valueKey then nodes.setTag e.1 .text else nodes) nodes

def entryCount (nodes : Nodes) : Nat :=
  nodes.foldl
    (fun total node =>
      match node.content with
      | .mapping entries => total + entries.length
      | _ => total) 0

end Nodes

namespace Merging

/-- The entries of a mapping after its own merge keys are resolved. -/
def entriesOf (resolve : Nat → Merging Unit) (n : Nat) : Merging (List (Nat × Nat)) := do
  match (← get).content? n with
  | some (.mapping _) =>
    resolve n
    return (← get).entries n
  | _ => throw .malformedYaml

def source (resolve : Nat → Merging Unit) (n : Nat) : Merging (List (Nat × Nat)) := do
  match (← get).content? n with
  | some (.sequence items) => return (← items.mapM (entriesOf resolve)).reverse.flatten
  | _ => entriesOf resolve n

/-- Takes the merge keys out of a mapping one by one, at most `fuel` of them, and collects what they
bring in. -/
def collect (resolve : Nat → Merging Unit) (n : Nat) : Nat → Merging (List (Nat × Nat))
  | 0 => return []
  | fuel + 1 => do
    let nodes ← get
    match nodes.splitAtMerge (nodes.entries n) with
    | none => return []
    | some (before, key, after) =>
      set (nodes.setContent n (.mapping (before ++ after)))
      let entries ← source resolve key
      return entries ++ (← collect resolve n fuel)

/-- Resolves the merge keys of a mapping, and makes its value keys texts. Every merge key that is
met on the way is taken out first, so `fuel` counts the merge keys that are left. -/
def resolve : Nat → Nat → Merging Unit
  | 0, _ => return
  | fuel + 1, n => do
    let merged ← collect (resolve fuel) n ((← get).entries n).length
    modify fun nodes => nodes.setValueKeys (nodes.entries n)
    if !merged.isEmpty then
      modify fun nodes => nodes.setContent n (.mapping (merged ++ nodes.entries n))

end Merging

/-- The nodes after the merge keys of a mapping are resolved; they have at most `keys` merge keys.
-/
def Nodes.resolveMerges (nodes : Nodes) (keys n : Nat) : Except Fault Nodes := do
  let (_, nodes) ← (Merging.resolve (keys + 1) n).run nodes
  return nodes

end ManifestChain.Yaml
