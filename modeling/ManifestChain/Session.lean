import ManifestChain.Chain
import ManifestChain.Value.Access

/-!
# Sessions

A session runs translators one after the other in one context, on children that can be replaced by
the last result and edited in between. A step that fails changes nothing but the warnings.
-/

namespace ManifestChain

/-- The state of a session. The application is the last one that a translator returned. -/
structure Session where
  context : Context
  workload : Workload
  children : Value
  last : Value
  application : Option Value

namespace Session

def start (context : Context) (workload : Workload) (children : Value) : Session :=
  ⟨context, workload, children, .null, none⟩

inductive Step where
  | inject
  | wrap
  | translate (chain : Value)
  /-- Takes the last result as the children; the result is their number. -/
  | adopt
  | setLabelKey (key : Value)
  | setWorkload (workload : Workload)
  | append (child : Value)
  | assign (path : List Value) (value : Value)
  | remove (path : List Value)
  | clearWarnings
  | labels
  | classify (index : Value)
  /-- The manifest of the application. -/
  | render
  /-- Empties a decoded payload and decodes it again. -/
  | editDecoded (index : Value)
  | writeLabel (index : Value)
  | writeSelector
  /-- Tries to change the workload's identity. -/
  | changeIdentity

/-- The application that a result begins with. -/
def leadingApplication? : Value → Option Value
  | .list _ (.application name selector templates :: _) =>
    some (.application name selector templates)
  | _ => none

/-- Runs a translator on the children and keeps its result. -/
def translated (s : Session) (run : Run Outcome) : Except Fault Value × Session :=
  match run.runIn s.context with
  | (.error f, ctx) => (.error f, { s with context := ctx })
  | (.ok outcome, ctx) =>
    let result := outcome.value s.children
    let application := (leadingApplication? result).or s.application
    (.ok result, { s with context := ctx, last := result, application := application })

/-- The outcome of a step that changes the children. -/
def edited (s : Session) (children : Except Fault Value) : Except Fault Value × Session :=
  match children with
  | .error f => (.error f, s)
  | .ok v => (.ok .null, { s with children := v })

/-- A template of the application. -/
def templateAt (s : Session) (index : Value) : Except Fault Value :=
  match s.application with
  | some (.application _ _ templates) => Value.itemAt templates index
  | _ => .error .noSuchMember

/-- What is left of a template's payload after a decoded copy has been emptied. -/
def decodedAnew (s : Session) (index : Value) : Except Fault Value := do
  match ← s.templateAt index with
  | .templateRecord _ _ payload =>
    let _ ← (← payload.decode).cleared
    payload.decode
  | _ => throw .noSuchMember

/-- The fault of writing to a template's labels. -/
def labelWrite (s : Session) (index : Value) : Fault :=
  match s.templateAt index with
  | .ok (.templateRecord _ _ _) => .wrongKind
  | .ok _ => .noSuchMember
  | .error f => f

/-- The result of a step, and the session after it. -/
def step (s : Session) : Step → Except Fault Value × Session
  | .inject => s.translated (Translator.serviceInjector.run s.workload s.children)
  | .wrap => s.translated (Translator.kubeAppWrapper.run s.workload s.children)
  | .translate chain => s.translated (Chain.translate s.workload s.children chain)
  | .adopt =>
    match s.last with
    | .null => (.ok .null, { s with children := .null })
    | last => match last.size with
      | .ok n => (.ok (.int n), { s with children := last })
      | .error f => (.error f, s)
  | .setLabelKey key => (.ok .null, { s with context := { s.context with labelKey := key } })
  | .setWorkload workload => (.ok .null, { s with workload := workload })
  | .append child =>
    match s.children with
    | .list mark items => (.ok .null, { s with children := .list mark (items ++ [child]) })
    | _ => (.error .noSuchMember, s)
  | .assign path value => s.edited (s.children.updateAt (Value.assign value) path)
  | .remove path => s.edited (s.children.updateAt Value.remove path)
  | .clearWarnings => (.ok .null, { s with context := { s.context with warnings := [] } })
  | .labels => ((s.context.labels s.workload).map Value.ofEntries, s)
  | .classify index =>
    (do
      let child ← s.children.partAt index
      return .text ((← child.classify).record child).typeName, s)
  | .render =>
    match s.application with
    | some app => (app.manifest, s)
    | none => (.ok .null, s)
  | .editDecoded index => (s.decodedAnew index, s)
  | .writeLabel index => (.error (s.labelWrite index), s)
  | .writeSelector =>
    (.error (if s.application.isSome then .wrongKind else .noSuchMember), s)
  | .changeIdentity => (.error .frozenRecord, s)

end Session

end ManifestChain
