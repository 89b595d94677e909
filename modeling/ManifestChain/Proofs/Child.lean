import ManifestChain.Child
import ManifestChain.Proofs.Value.Display

/-!
# What children are recognized as

A mapping of kind `Deployment` is recognized as a deployment exactly if every one of its containers
can be interpreted, and then with these containers. Recognition fails only for a deployment where
the reason against it would have to show a container's name that cannot be shown.
-/

namespace ManifestChain

namespace Value

/-- The entries of a mapping of kind `Deployment`. -/
def deployment? (v : Value) : Option Entries :=
  v.entries?.bind fun entries =>
    match field entries "kind" with
    | text kind => if kind = deploymentKind then some entries else none
    | _ => none

/-- Whether a container can be interpreted: a mapping whose ports are missing, null or a list. -/
def isContainer (c : Value) : Bool :=
  match c.entries? with
  | some entries => match field entries "ports" with
    | null => true
    | list _ _ => true
    | _ => false
  | none => false

/-- The containers of a deployment that can be interpreted. -/
def containers? (v : Value) : Option (List Value) :=
  (v.deployment?.bind podContainers?).filter fun containers => containers.all isContainer

/-- The first container of a deployment that cannot be interpreted. -/
def strayContainer? (v : Value) : Option Value :=
  (v.deployment?.bind podContainers?).bind fun containers =>
    containers.find? fun c => !c.isContainer

/-- What a mapping has under its name, a question mark if it has nothing. -/
def nameIn (v : Value) : Value :=
  match v.entries? with
  | some entries => (entries.get? "name").getD "?"
  | none => "?"

/-- The name that a manifest gives itself. -/
def ownName (v : Value) : Value :=
  match v.entries? with
  | some entries => (field entries "metadata").nameIn
  | none => "?"

variable {v : Value} {entries : Entries} {containers : List Value}

theorem deployment?_eq_some_iff : v.deployment? = some entries ↔
    v.entries? = some entries ∧ field entries "kind" = text deploymentKind := by
  rw [deployment?, Option.bind_eq_some_iff]
  constructor
  · rintro ⟨found, hentries, h⟩
    split at h
    next kind hkind =>
      obtain ⟨rfl, h⟩ := Option.ite_none_right_eq_some.mp h
      cases h
      exact ⟨hentries, hkind⟩
    next => cases h
  · rintro ⟨hentries, hkind⟩
    refine ⟨entries, hentries, ?_⟩
    rw [hkind]
    simp

theorem containers?_eq_some_iff : v.containers? = some containers ↔
    v.deployment?.bind podContainers? = some containers ∧
      ∀ c ∈ containers, c.isContainer = true := by
  rw [containers?, Option.filter_eq_some_iff, List.all_eq_true]

/-! ## Containers -/

/-- What speaks against a container that cannot be interpreted. -/
def strayReason (c : Value) : Except Fault Otherness :=
  if c.isMapping then c.nameIn.shown.map .portList else .ok .containerEntry

/-- What speaks against a deployment that cannot be interpreted: the first container that cannot, or
the path to the containers. -/
def malformation (v : Value) : Except Fault Otherness :=
  match v.strayContainer? with
  | some c => c.strayReason
  | none => .ok .podTemplate

theorem malformedContainer?_cons_of_isContainer {c : Value} (h : c.isContainer = true)
    (rest : List Value) : malformedContainer? (c :: rest) = malformedContainer? rest := by
  rw [malformedContainer?]
  unfold isContainer at h
  generalize c.entries? = entries at h ⊢
  cases entries with
  | none => cases h
  | some entries =>
      simp only at h ⊢
      generalize field entries "ports" = ports at h ⊢
      cases ports with
      | null => rfl
      | list mark items => rfl
      | _ => cases h

theorem malformedContainer?_cons_of_not_isContainer {c : Value} (h : c.isContainer = false)
    (rest : List Value) : malformedContainer? (c :: rest) = c.strayReason.map some := by
  rw [malformedContainer?, strayReason, isMapping, nameIn]
  unfold isContainer at h
  generalize c.entries? = entries at h ⊢
  cases entries with
  | none => rfl
  | some entries =>
      simp only [Option.isSome_some, if_true] at h ⊢
      generalize ((entries.get? "name").getD "?").shown = name
      generalize field entries "ports" = ports at h ⊢
      cases ports with
      | null => cases h
      | list mark items => cases h
      | _ => cases name <;> rfl

/-- The first container that cannot be interpreted speaks against a deployment. -/
theorem malformedContainer?_eq (containers : List Value) : malformedContainer? containers =
    match containers.find? fun c => !c.isContainer with
    | some c => c.strayReason.map some
    | none => .ok none := by
  induction containers with
  | nil => rfl
  | cons c rest ih =>
      cases hc : c.isContainer with
      | true =>
          rw [malformedContainer?_cons_of_isContainer hc, ih,
            List.find?_cons_of_neg (by rw [hc]; decide)]
      | false =>
          rw [malformedContainer?_cons_of_not_isContainer hc,
            List.find?_cons_of_pos (by rw [hc]; rfl)]

theorem firstPort?_eq_findSome? (containers : List Value) :
    Child.firstPort? containers = containers.findSome? fun c => (Child.ports c).head? := by
  induction containers with
  | nil => rfl
  | cons c rest ih =>
      rw [Child.firstPort?, List.findSome?_cons]
      cases Child.ports c with
      | nil => exact ih
      | cons port ports => rfl

/-! ## Recognition -/

theorem classify_of_deployment? (h : v.deployment? = some entries) :
    v.classify = classifyDeployment entries := by
  obtain ⟨hentries, hkind⟩ := deployment?_eq_some_iff.mp h
  rw [classify, hentries]
  simp only [hkind, if_true]

/-- What is no deployment is recognized without fail, and not as a malformed one. -/
theorem classify_of_deployment?_eq_none (h : v.deployment? = none) :
    v.classify = .ok .service ∨ ∃ why, v.classify = .ok (.other why) ∧ why.isMalformed = false := by
  rw [deployment?] at h
  rw [classify]
  generalize v.entries? = found at h ⊢
  cases found with
  | none => exact .inr ⟨.notManifest, rfl, rfl⟩
  | some entries =>
      simp only [Option.bind_some] at h ⊢
      generalize field entries "kind" = kind at h ⊢
      cases kind with
      | text kind =>
          have hkind : kind ≠ deploymentKind := by simpa using h
          simp only [if_neg hkind]
          split
          · exact .inl rfl
          · exact .inr ⟨.anotherKind, rfl, rfl⟩
      | _ => exact .inr ⟨.anotherKind, rfl, rfl⟩

/-- A deployment that can be interpreted is recognized by its containers. -/
theorem classify_of_containers? (h : v.containers? = some containers) :
    v.classify = .ok (.deployment containers) := by
  obtain ⟨hpath, hall⟩ := containers?_eq_some_iff.mp h
  obtain ⟨entries, hdeployment, hpath⟩ := Option.bind_eq_some_iff.mp hpath
  have hnone : containers.find? (fun c => !c.isContainer) = none :=
    List.find?_eq_none.mpr fun c hc => by simp [hall c hc]
  rw [classify_of_deployment? hdeployment, classifyDeployment, hpath]
  simp only [malformedContainer?_eq, hnone]
  rfl

/-- A deployment that cannot be interpreted is recognized by what speaks against it. -/
theorem classify_of_malformed (h : v.deployment? = some entries) (hnone : v.containers? = none) :
    v.classify = v.malformation.map .other := by
  rw [classify_of_deployment? h, classifyDeployment, malformation, strayContainer?, h,
    Option.bind_some]
  rw [containers?, h, Option.bind_some] at hnone
  generalize podContainers? entries = found at hnone ⊢
  cases found with
  | none => rfl
  | some containers =>
      have hall : containers.all isContainer = false := by simpa using hnone
      obtain ⟨c, hc, hstray⟩ := List.all_eq_false.mp hall
      have hsome : (containers.find? fun c => !c.isContainer).isSome = true :=
        List.find?_isSome.mpr ⟨c, hc, by simpa using hstray⟩
      simp only [malformedContainer?_eq, Option.bind_some]
      generalize containers.find? (fun c => !c.isContainer) = stray at hsome ⊢
      cases stray with
      | none => cases hsome
      | some c =>
          simp only
          cases c.strayReason <;> rfl

theorem isMalformed_of_malformation {why : Otherness} (h : v.malformation = .ok why) :
    why.isMalformed = true := by
  rw [malformation] at h
  split at h
  next c _ =>
    rw [strayReason] at h
    split at h
    next =>
      obtain ⟨name, -, rfl⟩ := Fault.map_eq_ok_iff.mp h
      rfl
    next =>
      cases h
      rfl
  next =>
    cases h
    rfl

theorem malformation_eq_error_iff {e : Fault} : v.malformation = .error e ↔ e = .badValue ∧
    ∃ c, v.strayContainer? = some c ∧ c.isMapping = true ∧ c.nameIn.ShowsLongInt := by
  rw [malformation]
  cases v.strayContainer? with
  | none => simp
  | some c =>
      simp only [strayReason, Option.some.injEq, exists_eq_left']
      cases c.isMapping with
      | true => simp [Fault.map_eq_error_iff, shown_eq_error_iff]
      | false => simp

/-- A value is recognized as a deployment exactly if it is one that can be interpreted. -/
theorem classify_eq_deployment_iff :
    v.classify = .ok (.deployment containers) ↔ v.containers? = some containers := by
  refine ⟨fun h => ?_, classify_of_containers?⟩
  cases hdeployment : v.deployment? with
  | none =>
      rcases classify_of_deployment?_eq_none hdeployment with hother | ⟨why, hother, -⟩
      · rw [hother] at h
        cases h
      · rw [hother] at h
        cases h
  | some entries =>
      cases hcontainers : v.containers? with
      | none =>
          rw [classify_of_malformed hdeployment hcontainers] at h
          obtain ⟨why, -, hwhy⟩ := Fault.map_eq_ok_iff.mp h
          cases hwhy
      | some found =>
          rw [classify_of_containers? hcontainers] at h
          cases h
          rfl

theorem strayContainer?_of_containers? (h : v.containers? = some containers) :
    v.strayContainer? = none := by
  obtain ⟨hpath, hall⟩ := containers?_eq_some_iff.mp h
  rw [strayContainer?, hpath, Option.bind_some]
  exact List.find?_eq_none.mpr fun c hc => by simp [hall c hc]

/-- A value is not recognized exactly if it is a deployment whose first container that cannot be
interpreted is a mapping with a name that cannot be shown. -/
theorem classify_eq_error_iff {e : Fault} :
    v.classify = .error e ↔ e = .badValue ∧
      ∃ c, v.strayContainer? = some c ∧ c.isMapping = true ∧ c.nameIn.ShowsLongInt := by
  cases hdeployment : v.deployment? with
  | none =>
      have hstray : v.strayContainer? = none := by rw [strayContainer?, hdeployment]; rfl
      rcases classify_of_deployment?_eq_none hdeployment with hok | ⟨why, hok, -⟩
      · simp [hok, hstray]
      · simp [hok, hstray]
  | some entries =>
      cases hcontainers : v.containers? with
      | some containers =>
          simp [classify_of_containers? hcontainers, strayContainer?_of_containers? hcontainers]
      | none =>
          rw [classify_of_malformed hdeployment hcontainers, Fault.map_eq_error_iff,
            malformation_eq_error_iff]

end Value

end ManifestChain
