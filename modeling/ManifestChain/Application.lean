import ManifestChain.Context
import ManifestChain.Payload
import ManifestChain.Text.LetterCase.Lower

/-!
# Wrapping children in an application

Every child becomes a template: its payload under a name made of the workload's and the child's
kind, with the correlation label. The application holds the templates in the order of the children.
A child without a payload fails the whole.
-/

namespace ManifestChain

/-- A child captured under a name, with labels. -/
structure Template where
  name : Value
  labels : Entries
  payload : List UInt8

/-- Templates that belong together, and the labels that select what they make. -/
structure Application where
  name : Value
  selector : Entries
  templates : List Template

namespace Template

def toValue (t : Template) : Value := .template t.name t.labels t.payload

end Template

namespace Application

def toValue (a : Application) : Value :=
  .application a.name a.selector (a.templates.map Template.toValue)

end Application

namespace Value

/-- The kind of a child as its manifest has it; empty if it is missing or counts as false. -/
def kindText (child : Value) : Except Fault Text := do
  match (← child.manifest).entries? with
  | some entries =>
    let kind := field entries "kind"
    if kind.isTruthy then kind.shown else return ""
  | none => return ""

end Value

namespace Template

/-- The name of a template: the workload's name and the child's kind in lower case. -/
def nameOf (workload : Workload) (child : Value) : Except Fault Text := do
  let owner ← workload.name.shown
  return owner ++ "-" ++ (← child.kindText).lower

def ofChild (workload : Workload) (index : Nat) (child : Value) : Run Template := do
  let payload ← Run.ofExcept (child.payload workload.name (some index))
  let name ← Run.ofExcept (nameOf workload child)
  return ⟨.text name, ← Run.labels workload, payload⟩

/-- The templates of children, the first of which has the given index. -/
def ofChildren (workload : Workload) : Nat → List Value → Run (List Template)
  | _, [] => pure []
  | index, child :: rest => do
    let t ← ofChild workload index child
    return t :: (← ofChildren workload (index + 1) rest)

end Template

namespace Application

/-- The application of the children; none if there are none. -/
def wrap? (workload : Workload) (children : Value) : Run (Option Application) :=
  if !children.isTruthy then pure none
  else match children.items? with
    | none => throw .wrongKind
    | some items => do
      let templates ← Template.ofChildren workload 0 items
      return some ⟨workload.name, ← Run.labels workload, templates⟩

end Application

end ManifestChain
