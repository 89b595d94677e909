import ManifestChain.Application
import ManifestChain.Service

/-!
# Chains of translators

A chain is a sequence of names of registered translators and of translators themselves. Names are
looked up before anything runs; then every translator works on what the one before it returned.
-/

namespace ManifestChain

namespace Chain

/-- The chain that is used unless another one is chosen: the service is added first, so that it is
wrapped together with the deployment. -/
def standard : Value :=
  .tuple [.text Translator.serviceInjector.name, .text Translator.kubeAppWrapper.name]

/-- The translator registered under a name. -/
def lookup (name : Value) : Except Fault Translator :=
  match name with
  | .text t => match Translator.ofName? t with
    | some found => .ok found
    | none => .error (.unknownTranslator name t)
  | _ =>
    if name.isHashable then do throw (.unknownTranslator name (← name.shown))
    else .error .wrongKind

/-- A member of a chain: what a name refers to, or the member itself. -/
def resolveMember (member : Value) : Except Fault Value :=
  match member with
  | .text _ => (lookup member).map .translator
  | v => .ok v

/-- The members of a chain, names replaced by what they refer to. -/
def resolve (chain : Value) : Except Fault (List Value) :=
  match chain.items? with
  | some members => members.mapM resolveMember
  | none => .error .wrongKind

/-- The name of a resolved member; null if it has none. -/
def memberName : Value → Value
  | .translator t => .text t.name
  | .constant _ => "const"
  | .templateRecord name _ _ => name
  | .application name _ _ => name
  | _ => .null

end Chain

namespace Translator

/-- What a registered translator makes of the children. The wrapper returns a list of one. -/
def run (t : Translator) (workload : Workload) (children : Value) : Run Outcome :=
  match t with
  | serviceInjector => Service.inject workload children
  | kubeAppWrapper => do
    match ← Application.wrap? workload children with
    | some app => return .replaced (.ofList [app.toValue])
    | none => return .replaced .null

end Translator

namespace Chain

/-- What a member of a chain makes of the children. What is no translator does not know how to
translate; bytes do, but not children. -/
def runMember (member : Value) (workload : Workload) (children : Value) : Run Outcome :=
  match member with
  | .translator t => t.run workload children
  | .constant result => pure (.replaced result)
  | .bytes _ => throw .wrongKind
  | _ => throw .noSuchMember

/-- Runs members in turn on what was returned so far for the children. -/
def runMembers (workload : Workload) (children : Value) : List Value → Outcome → Run Outcome
  | [], sofar => pure sofar
  | member :: rest, sofar => do
    match ← runMember member workload (sofar.value children) with
    | .unchanged => runMembers workload children rest sofar
    | .replaced result => runMembers workload children rest (.replaced result)

/-- What a chain makes of the children of a workload. -/
def translate (workload : Workload) (children chain : Value) : Run Outcome := do
  let members ← Run.ofExcept (resolve chain)
  runMembers workload children members .unchanged

end Chain

namespace Value

/-- Whether there is only one object with this content, so that it cannot be told whether it was
returned or made anew. -/
def isUnique : Value → Bool
  | null => true
  | bool _ => true
  | int n => -5 ≤ n && n ≤ 256
  | text [] => true
  | text [c] => c.value < 0x100
  | bytes b => b.length ≤ 1
  | tuple items => items.isEmpty
  | _ => false

end Value

namespace Outcome

/-- Whether the result is the very object that was given. -/
def isSame (children : Value) : Outcome → Bool
  | unchanged => true
  | replaced result =>
    children.isUnique && children.typeName == result.typeName && children.equal result

end Outcome

end ManifestChain
