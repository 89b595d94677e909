import ManifestChain.Proofs.Context

/-!
# Runs that agree

Two runs agree if, in any context, they have one outcome and add the same warnings, which depend on
the key of the label only. A run that agrees with itself does not look at the warnings before it or
at the deadline, and leaves both as they are but for what it adds.
-/

namespace ManifestChain

namespace Run

variable {α β : Type}

/-- Two runs have one outcome and add the same warnings in any context, and both depend on the key
of the label only. -/
def Agree (x y : Run α) : Prop :=
  ∀ key, ∃ outcome suffix, ∀ warnings deadline,
    x.runIn ⟨key, warnings, deadline⟩ = (outcome, ⟨key, warnings ++ suffix, deadline⟩) ∧
      y.runIn ⟨key, warnings, deadline⟩ = (outcome, ⟨key, warnings ++ suffix, deadline⟩)

namespace Agree

theorem ofExcept (x : Except Fault α) : Agree (ofExcept x) (ofExcept x) := by
  refine fun key => ⟨x, [], fun warnings deadline => ?_⟩
  rw [List.append_nil, runIn_ofExcept]
  exact ⟨rfl, rfl⟩

theorem pure (a : α) : Agree (pure a) (pure a) := ofExcept (.ok a)

theorem throw (e : Fault) : Agree (throw e : Run α) (throw e) := ofExcept (.error e)

theorem warn (warning : Text) : Agree (warn warning) (warn warning) :=
  fun _ => ⟨.ok (), [warning], fun _ _ => ⟨rfl, rfl⟩⟩

/-- The labels of a workload do not depend on where it is. -/
theorem labels (workload : Workload) (nameSpace : Value) :
    Agree (labels workload) (labels { workload with nameSpace }) := by
  refine fun key => ⟨(Context.mk key [] .null).labels workload, [], fun warnings deadline => ?_⟩
  rw [List.append_nil]
  exact ⟨rfl, rfl⟩

/-- Runs agree if their first parts do, and what follows does after each result. -/
theorem bind {x y : Run α} {f g : α → Run β} (hxy : Agree x y) (hfg : ∀ a, Agree (f a) (g a)) :
    Agree (x >>= f) (y >>= g) := by
  intro key
  obtain ⟨first, before, hfirst⟩ := hxy key
  cases first with
  | error e =>
      refine ⟨.error e, before, fun warnings deadline => ?_⟩
      obtain ⟨hx, hy⟩ := hfirst warnings deadline
      rw [runIn_bind, runIn_bind, hx, hy]
      exact ⟨rfl, rfl⟩
  | ok a =>
      obtain ⟨outcome, after, hsecond⟩ := hfg a key
      refine ⟨outcome, before ++ after, fun warnings deadline => ?_⟩
      obtain ⟨hx, hy⟩ := hfirst warnings deadline
      rw [runIn_bind, runIn_bind, hx, hy, ← List.append_assoc]
      exact hsecond (warnings ++ before) deadline

/-- Runs that agree have one outcome in two contexts with one key, and add the same warnings. -/
theorem runIn {x y : Run α} (h : Agree x y) {ctx ctx' : Context}
    (hkey : ctx.labelKey = ctx'.labelKey) : ∃ outcome suffix,
      x.runIn ctx = (outcome, { ctx with warnings := ctx.warnings ++ suffix }) ∧
        y.runIn ctx' = (outcome, { ctx' with warnings := ctx'.warnings ++ suffix }) := by
  obtain ⟨outcome, suffix, hagree⟩ := h ctx.labelKey
  obtain ⟨key', warnings', deadline'⟩ := ctx'
  cases hkey
  exact ⟨outcome, suffix, (hagree ctx.warnings ctx.deadline).1, (hagree warnings' deadline').2⟩

end Agree

end Run

end ManifestChain
