import ManifestChain.Proofs.Context

/-!
# Operations in step

Two operations are in step if both fail, with whatever faults, or both return and what they return
is related. Runs are in step under a key of the label if they are so in any two contexts with that
key, and leave it as it is; the warnings may differ.
-/

namespace ManifestChain

variable {α β γ δ : Type}

/-- Both operations fail, or both return and their results are related. -/
inductive Fault.Paired (r : α → β → Prop) : Except Fault α → Except Fault β → Prop
  | ok {a : α} {b : β} (h : r a b) : Paired r (.ok a) (.ok b)
  | error (e e' : Fault) : Paired r (.error e) (.error e')

namespace Fault.Paired

variable {r : α → β → Prop} {s : γ → δ → Prop}

theorem bind {x : Except Fault α} {y : Except Fault β} {f : α → Except Fault γ}
    {g : β → Except Fault δ} (hxy : Paired r x y) (hfg : ∀ a b, r a b → Paired s (f a) (g b)) :
    Paired s (x >>= f) (y >>= g) := by
  cases hxy with
  | ok hab => exact hfg _ _ hab
  | error e e' => exact .error e e'

theorem refl (x : Except Fault α) : Paired Eq x x := by
  cases x with
  | ok a => exact .ok rfl
  | error e => exact .error e e

theorem imp {r' : α → β → Prop} {x : Except Fault α} {y : Except Fault β} (h : Paired r x y)
    (hr : ∀ a b, r a b → r' a b) : Paired r' x y := by
  cases h with
  | ok hab => exact .ok (hr _ _ hab)
  | error e e' => exact .error e e'

/-- Operations are in step with equal results exactly if they return the same. -/
theorem eq_iff {x y : Except Fault α} : Paired Eq x y ↔ ∀ a, x = .ok a ↔ y = .ok a := by
  constructor
  · intro h a
    cases h with
    | ok hab => rw [hab]
    | error e e' => exact iff_of_false nofun nofun
  · intro h
    cases x with
    | ok a =>
        rw [(h a).mp rfl]
        exact .ok rfl
    | error e =>
        cases y with
        | ok b => cases (h b).mpr rfl
        | error e' => exact .error e e'

end Fault.Paired

/-- Under a key of the label both runs fail, or both return and their results are related; neither
changes the key. -/
def Run.Paired (key : Value) (r : α → β → Prop) (x : Run α) (y : Run β) : Prop :=
  ∀ ctx ctx', ctx.labelKey = key → ctx'.labelKey = key →
    Fault.Paired r (x.runIn ctx).1 (y.runIn ctx').1 ∧
      (x.runIn ctx).2.labelKey = key ∧ (y.runIn ctx').2.labelKey = key

namespace Run.Paired

variable {key : Value} {r : α → β → Prop} {s : γ → δ → Prop}

theorem ofExcept {x : Except Fault α} {y : Except Fault β} (h : Fault.Paired r x y) :
    Paired key r (ofExcept x) (ofExcept y) :=
  fun _ _ hctx hctx' => ⟨h, hctx, hctx'⟩

theorem pure {a : α} {b : β} (h : r a b) : Paired key r (pure a) (pure b) := ofExcept (.ok h)

theorem warn (warning warning' : Text) :
    Paired key (fun _ _ => True) (warn warning) (warn warning') :=
  fun _ _ hctx hctx' => ⟨.ok trivial, hctx, hctx'⟩

/-- The label is one where its key can be one. -/
theorem labels (workload : Workload) (h : key.isHashable = true) :
    Paired key (fun a b => a = [(key, workload.uid)] ∧ b = [(key, workload.uid)])
      (labels workload) (labels workload) := by
  rintro ctx ctx' rfl hctx'
  refine ⟨?_, rfl, hctx'⟩
  rw [runIn_labels, runIn_labels, Context.labels, Context.labels, hctx', if_pos h]
  exact .ok ⟨rfl, rfl⟩

theorem bind {x : Run α} {y : Run β} {f : α → Run γ} {g : β → Run δ} (hxy : Paired key r x y)
    (hfg : ∀ a b, r a b → Paired key s (f a) (g b)) : Paired key s (x >>= f) (y >>= g) := by
  intro ctx ctx' hctx hctx'
  obtain ⟨hfirst, hmid, hmid'⟩ := hxy ctx ctx' hctx hctx'
  rw [runIn_bind, runIn_bind]
  generalize x.runIn ctx = first at hfirst hmid ⊢
  generalize y.runIn ctx' = first' at hfirst hmid' ⊢
  obtain ⟨outcome, mid⟩ := first
  obtain ⟨outcome', mid'⟩ := first'
  simp only at hfirst hmid hmid'
  cases hfirst with
  | ok hab => exact hfg _ _ hab mid mid' hmid hmid'
  | error e e' => exact ⟨.error e e', hmid, hmid'⟩

/-- Runs in step with equal results return the same. -/
theorem returns_iff {x y : Run α} (h : Paired key Eq x y) {ctx ctx' : Context}
    (hctx : ctx.labelKey = key) (hctx' : ctx'.labelKey = key) (a : α) :
    (∃ last, x.runIn ctx = (.ok a, last)) ↔ ∃ last, y.runIn ctx' = (.ok a, last) := by
  have hreturns (z : Run α) (ctx : Context) :
      (∃ last, z.runIn ctx = (.ok a, last)) ↔ (z.runIn ctx).1 = .ok a :=
    ⟨fun ⟨_, hrun⟩ => congrArg Prod.fst hrun, fun hrun => ⟨_, Prod.ext hrun rfl⟩⟩
  rw [hreturns, hreturns]
  exact Fault.Paired.eq_iff.mp (h ctx ctx' hctx hctx').1 a

end Run.Paired

end ManifestChain
