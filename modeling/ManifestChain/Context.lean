import ManifestChain.Fault
import ManifestChain.Value.Equality

/-!
# Workloads and the context of a run

A run works for one workload and has a context: the key of the label that correlates what belongs
together, and the warnings so far. `Run` keeps the warnings of a run that fails.
-/

namespace ManifestChain

/-- The owner of a set of children. Its identity is given as it was found, of any kind. -/
structure Workload where
  name : Value
  nameSpace : Value
  uid : Value

def defaultLabelKey : Text := "workload.oam.crossplane.io"

/-- What the translators of a run share. The deadline is carried for callers; no translator reads
it. -/
structure Context where
  labelKey : Value
  warnings : List Text
  deadline : Value

namespace Context

/-- A context without warnings, with the default label key and no deadline. -/
def initial : Context := ⟨.text defaultLabelKey, [], .null⟩

/-- The correlation label of a workload. A key that can be written to is refused. -/
def labels (ctx : Context) (workload : Workload) : Except Fault Entries :=
  if ctx.labelKey.isHashable then .ok [(ctx.labelKey, workload.uid)] else .error .wrongKind

end Context

/-- An operation in a context. A fault keeps the context as it was when it arose. -/
abbrev Run := ExceptT Fault (StateM Context)

namespace Run

/-- The outcome of an operation, and the context after it. -/
def runIn {α : Type} (run : Run α) (ctx : Context) : Except Fault α × Context :=
  StateT.run (ExceptT.run run) ctx

def warn (warning : Text) : Run Unit :=
  modify fun ctx => { ctx with warnings := ctx.warnings ++ [warning] }

/-- The outcome of something that needs no context. -/
def ofExcept {α : Type} (x : Except Fault α) : Run α := ExceptT.mk (pure x)

/-- The correlation label of a workload in this context. -/
def labels (workload : Workload) : Run Entries := do
  let ctx ← get
  ofExcept (ctx.labels workload)

end Run

end ManifestChain
