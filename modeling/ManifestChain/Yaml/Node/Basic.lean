import ManifestChain.Yaml.Tag

/-!
# Nodes

The nodes of a YAML document are numbered, and a node refers to its parts by their numbers. So a
part that an alias names is there once, however often it is referred to.
-/

namespace ManifestChain.Yaml

/-- What a node holds, its parts given by their numbers. -/
inductive Content where
  | scalar (text : Text)
  | sequence (items : List Nat)
  | mapping (entries : List (Nat × Nat))

structure Node where
  tag : Tag
  content : Content

abbrev Nodes := Array Node

/-- A document: all its nodes, and the number of the one that stands for the whole. -/
structure Document where
  nodes : Nodes
  root : Nat

namespace Nodes

def tag? (nodes : Nodes) (n : Nat) : Option Tag := nodes[n]?.map Node.tag

def content? (nodes : Nodes) (n : Nat) : Option Content := nodes[n]?.map Node.content

/-- The entries of a mapping; other nodes have none. -/
def entries (nodes : Nodes) (n : Nat) : List (Nat × Nat) :=
  match nodes.content? n with
  | some (.mapping entries) => entries
  | _ => []

/-- The nodes with another content for one of them. -/
def setContent (nodes : Nodes) (n : Nat) (content : Content) : Nodes :=
  match nodes[n]? with
  | some node => nodes.setIfInBounds n { node with content }
  | none => nodes

/-- The nodes with another tag for one of them. -/
def setTag (nodes : Nodes) (n : Nat) (tag : Tag) : Nodes :=
  match nodes[n]? with
  | some node => nodes.setIfInBounds n { node with tag }
  | none => nodes

end Nodes

end ManifestChain.Yaml
