import ManifestChain.Value.Display

/-!
# Recognizing children

A child is a deployment, a service or neither. A mapping of kind `Deployment` counts as a deployment
only if its pod template can be interpreted: the path to the containers runs through mappings as far
as it goes, and the containers are mappings whose ports are lists. Missing and null parts mean that
there is nothing.
-/

namespace ManifestChain

/-- Why a child is neither a deployment nor a service. -/
inductive Otherness where
  /-- It is no mapping. -/
  | notManifest
  /-- Its kind is another one. -/
  | anotherKind
  /-- It is a deployment whose path to the containers is malformed. -/
  | podTemplate
  /-- It is a deployment with a container that is no mapping. -/
  | containerEntry
  /-- It is a deployment with a container whose ports are no list; the text shows the container's
  name. -/
  | portList (container : Text)
deriving DecidableEq, Repr

namespace Otherness

/-- The reason in words; another kind needs none. -/
def text : Otherness → Text
  | notManifest => "not a manifest"
  | anotherKind => ""
  | podTemplate => "pod template is not a mapping or containers is not a list"
  | containerEntry => "container entry is not a mapping"
  | portList container => "ports of container '" ++ container ++ "' is not a list"

/-- Whether the child is a deployment that cannot be interpreted. -/
def isMalformed : Otherness → Bool
  | notManifest => false
  | anotherKind => false
  | _ => true

end Otherness

inductive Child where
  | deployment (containers : List Value)
  | service
  | other (why : Otherness)

namespace Child

/-- The recognized child as a record of its own. -/
def record (value : Value) : Child → Value
  | deployment containers => .deploymentChild value (.tuple containers)
  | service => .serviceChild value
  | other why => .otherChild value (.text why.text)

def ports (container : Value) : List Value :=
  match container.entries? with
  | some entries => match Value.field entries "ports" with
    | .list _ items => items
    | _ => []
  | none => []

/-- The first port of the first container that declares any. -/
def firstPort? : List Value → Option Value
  | [] => none
  | c :: rest => match ports c with
    | p :: _ => some p
    | [] => firstPort? rest

def exposesPorts : Child → Bool
  | deployment containers => (firstPort? containers).isSome
  | _ => false

end Child

namespace Value

def deploymentKind : Text := "Deployment"

def serviceKind : Text := "Service"

/-- The containers at the end of a path of keys; none if the path is malformed. -/
def containersAlong? : List Text → Entries → Option (List Value)
  | [], node => match field node "containers" with
    | null => some []
    | list _ items => some items
    | _ => none
  | key :: keys, node => match field node key with
    | null => some []
    | v => match v.entries? with
      | some entries => containersAlong? keys entries
      | none => none

def podContainers? (manifest : Entries) : Option (List Value) :=
  containersAlong? ["spec", "template", "spec"] manifest

/-- What keeps a list of containers from being interpreted, if anything does. -/
def malformedContainer? : List Value → Except Fault (Option Otherness)
  | [] => .ok none
  | c :: rest => match c.entries? with
    | none => .ok (some .containerEntry)
    | some entries => match field entries "ports" with
      | null => malformedContainer? rest
      | list _ _ => malformedContainer? rest
      | _ => do return some (.portList (← ((entries.get? "name").getD "?").shown))

/-- What a mapping of kind `Deployment` is recognized as. -/
def classifyDeployment (manifest : Entries) : Except Fault Child :=
  match podContainers? manifest with
  | none => .ok (.other .podTemplate)
  | some containers => do
    match ← malformedContainer? containers with
    | some why => return .other why
    | none => return .deployment containers

/-- What a value is recognized as. It fails only where the name of a malformed container cannot be
shown. -/
def classify (v : Value) : Except Fault Child :=
  match v.entries? with
  | none => .ok (.other .notManifest)
  | some entries => match field entries "kind" with
    | text kind =>
      if kind = deploymentKind then classifyDeployment entries
      else if kind = serviceKind then .ok .service
      else .ok (.other .anotherKind)
    | _ => .ok (.other .anotherKind)

/-- The name that a manifest is called by in messages: kind and name with a slash, a question mark
for what is missing. -/
def fullName (v : Value) : Except Fault Text :=
  match v.entries? with
  | none => .ok (v.typeName ++ "/?")
  | some entries => do
    let kind ← ((entries.get? "kind").getD "?").shown
    let name ← match (field entries "metadata").entries? with
      | some metadata => ((metadata.get? "name").getD "?").shown
      | none => pure "?"
    return kind ++ "/" ++ name

end Value

end ManifestChain
