import ManifestChain.Yaml.Node.Basic
import ManifestChain.Yaml.Token

/-!
# From tokens to nodes

A document is one node and its parts. Anchors name nodes within a document: a name is given once,
and an alias comes after the beginning of the node it refers to.
-/

namespace ManifestChain.Yaml

/-- The state of reading: the tokens that are left, the handles of tags, and the nodes of the
document so far, of which some have names. -/
structure Reader where
  tokens : List Token
  handles : List (String × String)
  anchors : List (String × Nat)
  nodes : Nodes

abbrev Reading := StateT Reader (Except Fault)

namespace Reading

/-- The next token; the stream ends once only. A break of the stream is a fault once it is
reached. -/
def peek : Reading Token := do
  match (← get).tokens with
  | .broken f :: _ => throw f
  | t :: _ => return t
  | [] => return .streamEnd

def skip : Reading Unit := modify fun r => { r with tokens := r.tokens.tail }

def malformed {α : Type} : Reading α := throw .malformedYaml

/-- Adds a node to the document; its number. -/
def add (node : Node) : Reading Nat :=
  modifyGet fun r => (r.nodes.size, { r with nodes := r.nodes.push node })

/-- The tag that a written tag stands for; the exclamation mark alone is none. -/
def resolveTag (name : TagName) : Reading (Option Tag) := do
  let uri ← match name.handle with
    | none => pure name.suffix
    | some handle =>
      match (← get).handles.find? fun h => h.1 = handle with
      | some (_, lead) => pure (lead ++ name.suffix)
      | none => malformed
  return if uri = "!" then none else some (.ofUri uri)

/-- The anchor and the tag in front of a node, in either order. The flag tells whether there was a
tag, be it the exclamation mark alone. -/
def properties : Reading (Option String × Bool × Option Tag) := do
  match ← peek with
  | .anchor name =>
    skip
    match ← peek with
    | .tag t => do
      skip
      return (some name, true, ← resolveTag t)
    | _ => return (some name, false, none)
  | .tag t =>
    skip
    match ← peek with
    | .anchor name => do
      skip
      return (some name, true, ← resolveTag t)
    | _ => return (none, true, ← resolveTag t)
  | _ => return (none, false, none)

/-- Adds a node under a name, which no other node has. -/
def addNamed (anchor : Option String) (node : Node) : Reading Nat := do
  match anchor with
  | none => add node
  | some name =>
    if (← get).anchors.any fun a => a.1 = name then malformed
    let n ← add node
    modify fun r => { r with anchors := (name, n) :: r.anchors }
    return n

/-- Adds a node that begins, and gives it the content that is read after it. -/
def addAround (anchor : Option String) (node : Node) (read : Reading Content) : Reading Nat := do
  let n ← addNamed anchor node
  let content ← read
  modify fun r => { r with nodes := r.nodes.setContent n content }
  return n

def aliased (name : String) : Reading Nat := do
  match (← get).anchors.find? fun a => a.1 = name with
  | some (_, n) => return n
  | none => malformed

/-- The scalar of a place without content. -/
def emptyScalar : Reading Nat := add ⟨.null, .scalar []⟩

def startsEntry : Token → Bool
  | .blockEntry => true
  | _ => false

/-- Whether a token closes a place in a block mapping that has no content. -/
def endsBlockPlace : Token → Bool
  | .key => true
  | .value => true
  | .blockEnd => true
  | _ => false

/-- Whether a token closes a place in a block sequence that has no content. -/
def endsBlockItem : Token → Bool
  | .blockEntry => true
  | .blockEnd => true
  | _ => false

def endsFlowItem : Token → Bool
  | .flowEntry => true
  | .flowSequenceEnd => true
  | _ => false

def endsFlowPlace : Token → Bool
  | .flowEntry => true
  | .flowMappingEnd => true
  | _ => false

def isValue : Token → Bool
  | .value => true
  | _ => false

/-- A node of which only the anchor or the tag is there. -/
def absent (anchor : Option String) (tagged : Bool) (tag : Option Tag) : Reading Nat :=
  if anchor.isSome || tagged then addNamed anchor ⟨tag.getD .null, .scalar []⟩ else malformed

/-- The comma before an item or an entry of a flow collection; the first has none. -/
def flowComma (first : Bool) : Reading Unit :=
  if first then return
  else do
    match ← peek with
    | .flowEntry => skip
    | _ => malformed

mutual

/-- A node. In block context it may be a block collection, and as a value of a block mapping also a
block sequence that is not indented. -/
def node (block indentless : Bool) : Nat → Reading Nat
  | 0 => malformed
  | fuel + 1 => do
    match ← peek with
    | .alias name => do
      skip
      aliased name
    | _ => do
      let (anchor, tagged, tag) ← properties
      let items (read : Reading (List Nat)) : Reading Nat :=
        addAround anchor ⟨tag.getD .list, .sequence []⟩ (Content.sequence <$> read)
      let entries (read : Reading (List (Nat × Nat))) : Reading Nat :=
        addAround anchor ⟨tag.getD .map, .mapping []⟩ (Content.mapping <$> read)
      match ← peek with
      | .scalar content isPlain => do
        skip
        let read := isPlain || tagged
        let standard := if read then Tag.ofPlain content else .text
        addNamed anchor ⟨tag.getD standard, .scalar content⟩
      | .flowSequenceStart => do
        skip
        items (flowItems true fuel)
      | .flowMappingStart => do
        skip
        entries (flowEntries true fuel)
      | .blockSequenceStart =>
        if block then do
          skip
          items (blockItems fuel)
        else absent anchor tagged tag
      | .blockMappingStart =>
        if block then do
          skip
          entries (blockEntries fuel)
        else absent anchor tagged tag
      | .blockEntry =>
        if indentless then items (indentlessItems fuel) else absent anchor tagged tag
      | _ => absent anchor tagged tag

def blockItems : Nat → Reading (List Nat)
  | 0 => malformed
  | fuel + 1 => do
    match ← peek with
    | .blockEntry =>
      skip
      let item ← if endsBlockItem (← peek) then emptyScalar else node true false fuel
      return item :: (← blockItems fuel)
    | .blockEnd =>
      skip
      return []
    | _ => malformed

/-- The items of a block sequence that is not indented, which ends where no item follows. -/
def indentlessItems : Nat → Reading (List Nat)
  | 0 => malformed
  | fuel + 1 => do
    match ← peek with
    | .blockEntry =>
      skip
      let next ← peek
      let item ←
        if startsEntry next || endsBlockPlace next then emptyScalar else node true false fuel
      return item :: (← indentlessItems fuel)
    | _ => return []

def blockEntries : Nat → Reading (List (Nat × Nat))
  | 0 => malformed
  | fuel + 1 => do
    match ← peek with
    | .key => do
      skip
      let key ← if endsBlockPlace (← peek) then emptyScalar else node true true fuel
      let value ← blockValue fuel
      return (key, value) :: (← blockEntries fuel)
    | .blockEnd => do
      skip
      return []
    | _ => malformed

def blockValue : Nat → Reading Nat
  | 0 => malformed
  | fuel + 1 => do
    match ← peek with
    | .value => do
      skip
      if endsBlockPlace (← peek) then emptyScalar else node true true fuel
    | _ => emptyScalar

/-- The items of a flow sequence, after the first one with a comma before each. A key in front of an
item makes it a mapping of one entry. -/
def flowItems (first : Bool) : Nat → Reading (List Nat)
  | 0 => malformed
  | fuel + 1 => do
    if let .flowSequenceEnd ← peek then
      skip
      return []
    flowComma first
    match ← peek with
    | .key => do
      skip
      let entry := do
        let next ← peek
        let key ← if isValue next || endsFlowItem next then emptyScalar else node false false fuel
        return Content.mapping [(key, ← flowItemValue fuel)]
      let item ← addAround none ⟨.map, .mapping []⟩ entry
      return item :: (← flowItems false fuel)
    | .flowSequenceEnd => do
      skip
      return []
    | _ => do
      let item ← node false false fuel
      return item :: (← flowItems false fuel)

def flowItemValue : Nat → Reading Nat
  | 0 => malformed
  | fuel + 1 => do
    match ← peek with
    | .value => do
      skip
      if endsFlowItem (← peek) then emptyScalar else node false false fuel
    | _ => emptyScalar

/-- The entries of a flow mapping, after the first one with a comma before each. What is no key has
no value. -/
def flowEntries (first : Bool) : Nat → Reading (List (Nat × Nat))
  | 0 => malformed
  | fuel + 1 => do
    if let .flowMappingEnd ← peek then
      skip
      return []
    flowComma first
    match ← peek with
    | .key => do
      skip
      let next ← peek
      let key ← if isValue next || endsFlowPlace next then emptyScalar else node false false fuel
      let value ← flowEntryValue fuel
      return (key, value) :: (← flowEntries false fuel)
    | .flowMappingEnd => do
      skip
      return []
    | _ => do
      let key ← node false false fuel
      let value ← emptyScalar
      return (key, value) :: (← flowEntries false fuel)

def flowEntryValue : Nat → Reading Nat
  | 0 => malformed
  | fuel + 1 => do
    match ← peek with
    | .value => do
      skip
      if endsFlowPlace (← peek) then emptyScalar else node false false fuel
    | _ => emptyScalar

end

/-- The handles that need no directive. -/
def standardHandles : List (String × String) := [("!", "!"), ("!!", Tag.commonLead)]

/-- The directives in front of a document: one version at most, of the first generation, and each
handle once. -/
def directives : Nat → Bool → List (String × String) → Reading (List (String × String))
  | 0, _, handles => return handles
  | fuel + 1, versioned, handles => do
    match ← peek with
    | .directive (.version major) =>
      skip
      if versioned || major != 1 then malformed else directives fuel true handles
    | .directive (.handle name lead) =>
      skip
      if handles.any fun h => h.1 = name then malformed
      else directives fuel versioned ((name, lead) :: handles)
    | .directive .unknown =>
      skip
      directives fuel versioned handles
    | _ => return handles

def skipEnds : Nat → Reading Unit
  | 0 => return
  | fuel + 1 => do
    if let .documentEnd ← peek then
      skip
      skipEnds fuel

/-- The node of a document whose start mark has been read, which may be missing. -/
def afterMark (fuel : Nat) : Reading Nat := do
  match ← peek with
  | .directive _ => emptyScalar
  | .documentStart => emptyScalar
  | .documentEnd => emptyScalar
  | .streamEnd => emptyScalar
  | _ => node true false fuel

/-- A document after its start; anchors are its own. A mark may end it. -/
def documentBody (read : Reading Nat) : Reading Document := do
  modify fun r => { r with anchors := [], nodes := #[] }
  let root ← read
  if let .documentEnd ← peek then skip
  return ⟨(← get).nodes, root⟩

/-- Whether a document begins with a mark: only the first of a stream may go without one. -/
def isMarked (first : Bool) : Reading Bool := do
  match ← peek with
  | .directive _ => return true
  | .documentStart => return true
  | .streamEnd => return true
  | _ => return !first

/-- Reads up to the mark of the next document and over it, with its directives; false at the end of
the stream. -/
def findMark : Reading Bool := do
  let fuel := (← get).tokens.length + 1
  skipEnds fuel
  if let .streamEnd ← peek then return false
  let handles ← directives fuel false []
  let .documentStart ← peek | malformed
  skip
  modify fun r => { r with handles := handles ++ standardHandles }
  return true

/-- The next document of a stream, none at its end. -/
def document (first : Bool) : Reading (Option Document) := do
  let fuel := 2 * (← get).tokens.length + 2
  if ← isMarked first then
    if ← findMark then return some (← documentBody (afterMark fuel)) else return none
  else
    modify fun r => { r with handles := standardHandles }
    return some (← documentBody (node true false fuel))

/-- The only document of a stream, none if the stream has none. A second one is a fault, whatever it
holds. -/
def onlyDocument : Reading (Option Document) := do
  match ← document true with
  | none => return none
  | some d => if ← findMark then malformed else return some d

end Reading

/-- A reader at the start of a stream. -/
def Reader.start (tokens : List Token) : Reader := ⟨tokens, [], [], #[]⟩

end ManifestChain.Yaml
