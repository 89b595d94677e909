import ManifestChain.Yaml.Node.Part

/-!
# The value of a document

The parts that nodes become are put together to the value of the document. A value is made once for
each node, so it takes no more room than the document, however often aliases repeat it.

Two things are not as a document may have them. A node can refer to one that contains it, and then
what it stands for has no end: there is no such value, so the reading fails. The items of a set
stand in the order in which the document names them, where a set promises no order.
-/

namespace ManifestChain.Yaml

/-- How far a node is on the way to its value. -/
inductive Stage where
  | waiting
  /-- What is in it is being made. -/
  | begun
  | made (v : Value)

/-- A step of making values, given the stages of the nodes by their numbers. -/
abbrev Assembling := StateT (Array Stage) (Except Fault)

/-- The value of a part, given a way to make those of the nodes in it. -/
def Part.value (make : Nat → Assembling Value) (n : Nat) : Part → Assembling Value
  | scalar v => return v
  | nan => return .float .nan
  | list items => return .list (some n) (← items.mapM make)
  | pairs items => return .list (some n) (← items.mapM pair)
  | map entries => return .map (some n) (← entries.mapM entry)
  | set entries => return .set (some n) (← entries.mapM fun e => make e.1)
where
  entry (e : Nat × Nat) : Assembling (Value × Value) := do
    let k ← make e.1
    return (k, ← make e.2)
  pair (e : Nat × Nat) : Assembling Value := do
    let (k, v) ← entry e
    return .tuple [k, v]

namespace Assembling

def setStage (n : Nat) (stage : Stage) : Assembling Unit :=
  modify fun stages => stages.setIfInBounds n stage

/-- The value of a node, made at its first use. No node is entered twice, so a `fuel` of the number
of nodes is enough. -/
def make (parts : Array (Option Part)) : Nat → Nat → Assembling Value
  | 0, _ => throw .endless
  | fuel + 1, n => do
    match (← get)[n]?, (parts[n]?).join with
    | some (.made v), _ => return v
    | some .begun, _ => throw .endless
    | _, none => return .null
    | _, some part =>
      setStage n .begun
      let v ← part.value (make parts fuel) n
      setStage n (.made v)
      return v

end Assembling

def Document.value (d : Document) : Except Fault Value := do
  let parts ← d.parts
  let (v, _) ← (Assembling.make parts (d.nodes.size + 1) d.root).run
    (Array.replicate d.nodes.size .waiting)
  return v

end ManifestChain.Yaml
