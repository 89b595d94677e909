import ManifestChain.Json.Parser

/-!
# Rendering values to manifests

An object that renders, a template and an application have a manifest of their own; plain values are
manifests as they stand. A template's manifest holds its payload decoded anew, so rendering fails
where a payload is no document.
-/

namespace ManifestChain

/-- The version and kind of an application's manifest. -/
def applicationVersion : Text := "workload.crossplane.io/v1alpha1"

def applicationKind : Text := "KubernetesApplication"

namespace Value

def decodePayload (payload : List UInt8) : Except Fault Value :=
  (Json.ofBytes payload).map Json.toValue

/-- The document that is the payload of a template, given in bytes or as a text. -/
def decode : Value → Except Fault Value
  | bytes payload => decodePayload payload
  | text payload => (Json.parse payload).map Json.toValue
  | _ => .error .wrongKind

/-- The manifest of a template: its name and labels, and its payload under `spec.template`. -/
def templateManifest (name : Value) (labels : Entries) (payload : Value) : Except Fault Value := do
  let document ← payload.decode
  return .ofEntries
    [("metadata", .ofEntries [("name", name), ("labels", .ofEntries labels)]),
      ("spec", .ofEntries [("template", document)])]

/-- The manifest of an application around the manifests of its templates. -/
def applicationManifest (name : Value) (selector : Entries) (templates : List Value) : Value :=
  .ofEntries
    [("apiVersion", .text applicationVersion),
      ("kind", .text applicationKind),
      ("metadata", .ofEntries [("name", name)]),
      ("spec", .ofEntries
        [("resourceSelector", .ofEntries [("matchLabels", .ofEntries selector)]),
          ("resourceTemplates", .ofList templates)])]

mutual

/-- The manifest of a value that has one of its own; none for a value that does not render. -/
def rendered? : Value → Option (Except Fault Value)
  | rendering manifest => some (.ok manifest)
  | templateRecord name labels payload => some (templateManifest name labels payload)
  | application name selector templates =>
    some ((renderedItems templates).map (applicationManifest name selector))
  | _ => none

/-- The manifests of values that all have to render. -/
def renderedItems : List Value → Except Fault (List Value)
  | [] => .ok []
  | x :: xs => do
    let manifest ← match rendered? x with
      | some r => r
      | none => .error .noSuchMember
    return manifest :: (← renderedItems xs)

end

/-- The manifest of a value: its own if it has one, else the value itself. -/
def manifest (v : Value) : Except Fault Value := v.rendered?.getD (.ok v)

/-- The manifests of the items of a result; nothing and empty results have none. -/
def manifests (result : Value) : Except Fault (List Value) :=
  if result.isTruthy then
    match result.items? with
    | some items => items.mapM manifest
    | none => .error .wrongKind
  else .ok []

end Value

end ManifestChain
