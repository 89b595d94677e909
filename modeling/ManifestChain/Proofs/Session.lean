import ManifestChain.Proofs.Chain.Diagnostics
import ManifestChain.Session

/-!
# Steps of a session

A step that fails can add warnings and changes nothing else. No step looks at the warnings, so a
step that has failed fails again in the same way, however often it is made.
-/

namespace ManifestChain

open Run (Agree)

namespace Session

variable {s s' s'' : Session} {f : Fault} {run : Run Outcome} {step : Step}

/-- A session that is as another one but for warnings that were added. -/
def Warned (s s' : Session) : Prop :=
  ∃ suffix, s' = { s with
    context := { s.context with warnings := s.context.warnings ++ suffix } }

theorem Warned.refl (s : Session) : s.Warned s := by
  refine ⟨[], ?_⟩
  rw [List.append_nil]

theorem Warned.trans (h : s.Warned s') (h' : s'.Warned s'') : s.Warned s'' := by
  obtain ⟨before, rfl⟩ := h
  obtain ⟨after, rfl⟩ := h'
  refine ⟨before ++ after, ?_⟩
  rw [List.append_assoc]

/-! ## What a failing step leaves -/

theorem warned_of_translated (hrun : run.Agree run) (h : s.translated run = (.error f, s')) :
    s.Warned s' := by
  obtain ⟨outcome, suffix, heq, -⟩ := hrun.runIn (rfl : s.context.labelKey = s.context.labelKey)
  rw [translated, heq] at h
  cases outcome with
  | error e =>
      cases h
      exact ⟨suffix, rfl⟩
  | ok outcome => cases h

theorem eq_of_edited {children : Except Fault Value}
    (h : s.edited children = (.error f, s')) : s' = s := by
  cases children with
  | error e =>
      cases h
      rfl
  | ok v => cases h

/-- A step that fails changes nothing but the warnings. -/
theorem warned_of_step (h : s.step step = (.error f, s')) : s.Warned s' := by
  cases step with
  | inject => exact warned_of_translated (Service.inject_agree s.workload _ s.children) h
  | wrap =>
      exact warned_of_translated (Translator.kubeAppWrapper.run_agree s.workload _ s.children) h
  | translate chain =>
      exact warned_of_translated (Chain.translate_agree s.workload _ s.children chain) h
  | assign path value =>
      obtain rfl := eq_of_edited h
      exact .refl s'
  | remove path =>
      obtain rfl := eq_of_edited h
      exact .refl s'
  | adopt =>
      rw [Session.step] at h
      split at h
      next => cases h
      next =>
        split at h
        next => cases h
        next =>
          cases h
          exact .refl s
  | append child =>
      rw [Session.step] at h
      split at h
      next => cases h
      next =>
        cases h
        exact .refl s
  | render =>
      rw [Session.step] at h
      split at h
      next =>
        obtain rfl : s = s' := congrArg Prod.snd h
        exact .refl s
      next => cases h
  | setLabelKey | setWorkload | clearWarnings => cases h
  | labels | classify | editDecoded | writeLabel | writeSelector | changeIdentity =>
      obtain rfl : s = s' := congrArg Prod.snd h
      exact .refl s

/-! ## What a step looks at -/

/-- A run finds in a session what it finds before warnings were added to it. -/
theorem translated_of_warned (hrun : run.Agree run) (h : s.Warned s') :
    (s'.translated run).1 = (s.translated run).1 := by
  obtain ⟨added, rfl⟩ := h
  have hkey : s.context.labelKey =
      { s.context with warnings := s.context.warnings ++ added }.labelKey := rfl
  obtain ⟨outcome, suffix, heq, heq'⟩ := hrun.runIn hkey
  rw [translated, translated, heq, heq']
  cases outcome <;> rfl

/-- Warnings do not enter what a step returns or fails with. -/
theorem step_of_warned (h : s.Warned s') : (s'.step step).1 = (s.step step).1 := by
  have hwarned := h
  obtain ⟨added, rfl⟩ := h
  cases step with
  | inject => exact translated_of_warned (Service.inject_agree s.workload _ s.children) hwarned
  | wrap =>
      exact translated_of_warned (Translator.kubeAppWrapper.run_agree s.workload _ s.children)
        hwarned
  | translate chain =>
      exact translated_of_warned (Chain.translate_agree s.workload _ s.children chain) hwarned
  | assign path value =>
      simp only [Session.step, edited]
      cases s.children.updateAt (Value.assign value) path <;> rfl
  | remove path =>
      simp only [Session.step, edited]
      cases s.children.updateAt Value.remove path <;> rfl
  | adopt =>
      simp only [Session.step]
      split
      next => rfl
      next => cases s.last.size <;> rfl
  | append child =>
      simp only [Session.step]
      split <;> rfl
  | render =>
      simp only [Session.step]
      split <;> rfl
  | _ => rfl

/-- The session after a step was made a number of times. -/
def repeated (step : Step) : Nat → Session → Session
  | 0, s => s
  | count + 1, s => repeated step count (s.step step).2

/-- A step that fails can be made any number of times: it fails in the same way again, and only adds
warnings. -/
theorem repeated_of_error (h : (s.step step).1 = .error f) (count : Nat) :
    s.Warned (repeated step count s) ∧ ((repeated step count s).step step).1 = .error f := by
  induction count generalizing s with
  | zero => exact ⟨.refl s, h⟩
  | succ count ih =>
      have hwarned : s.Warned (s.step step).2 := warned_of_step (Prod.ext h rfl)
      obtain ⟨hmore, hfault⟩ := ih ((step_of_warned hwarned).trans h)
      exact ⟨hwarned.trans hmore, hfault⟩

end Session

end ManifestChain
