import ManifestChain.Context

/-!
# Runs step by step

What a run returns and the context it leaves are those of its steps in turn. A run can only add
warnings: the key of the label and the deadline stay as they are.
-/

namespace ManifestChain

namespace Run

variable {α β : Type} {ctx ctx' : Context}

@[simp] theorem runIn_ofExcept (x : Except Fault α) (ctx : Context) :
    (ofExcept x).runIn ctx = (x, ctx) := rfl

@[simp] theorem runIn_warn (warning : Text) (ctx : Context) :
    (warn warning).runIn ctx = (.ok (), { ctx with warnings := ctx.warnings ++ [warning] }) := rfl

@[simp] theorem runIn_labels (workload : Workload) (ctx : Context) :
    (labels workload).runIn ctx = (ctx.labels workload, ctx) := rfl

theorem runIn_bind (x : Run α) (f : α → Run β) (ctx : Context) :
    (x >>= f).runIn ctx = match x.runIn ctx with
      | (.ok a, mid) => (f a).runIn mid
      | (.error e, mid) => (.error e, mid) := by
  simp only [runIn, ExceptT.run_bind, StateT.run_bind]
  generalize (ExceptT.run x).run ctx = outcome
  obtain ⟨_ | _, mid⟩ := outcome <;> rfl

/-- A sequence returns what its second part returns, in the context that the first one left. -/
theorem runIn_bind_eq_ok_iff {x : Run α} {f : α → Run β} {r : β} :
    (x >>= f).runIn ctx = (.ok r, ctx') ↔
      ∃ a mid, x.runIn ctx = (.ok a, mid) ∧ (f a).runIn mid = (.ok r, ctx') := by
  rw [runIn_bind]
  rcases x.runIn ctx with ⟨e | a, mid⟩
  · simp
  · exact ⟨fun h => ⟨a, mid, rfl, h⟩, fun ⟨_, _, heq, h⟩ => by cases heq; exact h⟩

/-- What needs no context leaves it to what follows. -/
theorem runIn_ofExcept_bind_eq_ok_iff {x : Except Fault α} {f : α → Run β} {r : β} :
    (ofExcept x >>= f).runIn ctx = (.ok r, ctx') ↔
      ∃ a, x = .ok a ∧ (f a).runIn ctx = (.ok r, ctx') := by
  rw [runIn_bind, runIn_ofExcept]
  cases x <;> simp

theorem runIn_labels_bind_eq_ok_iff {workload : Workload} {f : Entries → Run β} {r : β} :
    (labels workload >>= f).runIn ctx = (.ok r, ctx') ↔
      ∃ entries, ctx.labels workload = .ok entries ∧ (f entries).runIn ctx = (.ok r, ctx') := by
  rw [runIn_bind, runIn_labels]
  cases ctx.labels workload <;> simp

end Run

end ManifestChain
