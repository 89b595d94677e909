import ManifestChain.Child
import ManifestChain.Context

/-!
# Exposing a port by a service

The children of a workload are searched for the first port that a deployment declares. If there is
one, a service that balances load onto it is added at the end; otherwise the children stay as they
are. A deployment that cannot be interpreted is passed over with a warning.
-/

namespace ManifestChain

/-- What a translator returns: the very children it was given, or another value. -/
inductive Outcome where
  | unchanged
  | replaced (result : Value)

namespace Outcome

/-- The value that is returned for these children. -/
def value (children : Value) : Outcome → Value
  | unchanged => children
  | replaced result => result

end Outcome

namespace Service

def minPort : Int := 1

def maxPort : Int := 65535

/-- The number of a declared port: an integer in range, truth values excepted. -/
def portNumber? (port : Value) : Option Int :=
  match port.entries? with
  | some entries => match Value.field entries "containerPort" with
    | .int n => if minPort ≤ n ∧ n ≤ maxPort then some n else none
    | _ => none
  | none => none

/-- The fault of a deployment whose first declared port is not valid. -/
def invalidPort (workload : Workload) (deployment port : Value) (index : Nat) :
    Except Fault Fault := do
  let name ← deployment.fullName
  return .invalidPort name (← port.quoted) workload.name index

def exposedPort (workload : Workload) (deployment port : Value) (index : Nat) :
    Except Fault Int :=
  match portNumber? port with
  | some n => .ok n
  | none => do throw (← invalidPort workload deployment port index)

/-- The warning about a deployment that is passed over. -/
def skipped (deployment : Value) (why : Otherness) : Except Fault Text := do
  return (← deployment.fullName) ++ " skipped for service injection: " ++ why.text

/-- The port of the first deployment that declares any, the first child having the given index. -/
def findPort (workload : Workload) : Nat → List Value → Run (Option Int)
  | _, [] => pure none
  | index, child :: rest => do
    match ← Run.ofExcept child.classify with
    | .deployment containers =>
      match Child.firstPort? containers with
      | some port => return some (← Run.ofExcept (exposedPort workload child port index))
      | none => findPort workload (index + 1) rest
    | .service => findPort workload (index + 1) rest
    | .other why =>
      if why.isMalformed then
        Run.warn (← Run.ofExcept (skipped child why))
      findPort workload (index + 1) rest

/-- The service that exposes a port of a workload, under and by its correlation label. -/
def manifest (workload : Workload) (port : Value) (labels selector : Entries) : Value :=
  .ofEntries
    [("apiVersion", "v1"),
      ("kind", .text Value.serviceKind),
      ("metadata", .ofEntries [("name", workload.name), ("labels", .ofEntries labels)]),
      ("spec", .ofEntries
        [("selector", .ofEntries selector),
          ("type", "LoadBalancer"),
          ("ports", .ofList
            [.ofEntries [("name", workload.name), ("port", port), ("targetPort", port)]])])]

def build (workload : Workload) (port : Value) : Run Value := do
  let labels ← Run.labels workload
  let selector ← Run.labels workload
  return manifest workload port labels selector

/-- The children with a service for the first declared port. Without children there is no result. -/
def inject (workload : Workload) (children : Value) : Run Outcome :=
  if !children.isTruthy then pure (.replaced .null)
  else match children.items? with
    | none => throw .wrongKind
    | some items => do
      match ← findPort workload 0 items with
      | none => return .unchanged
      | some port => return .replaced (.ofList (items ++ [← build workload (.int port)]))

end Service

end ManifestChain
