import ManifestChain.Proofs.Child

/-!
# Deployments that can be interpreted

What a deployment has to look like, told by what its mappings hold: the path to the containers runs
through mappings until it meets nothing or a list, and every item of that list is a mapping that has
a list of ports or none. Recognition agrees with this: a value is recognized as a deployment exactly
if it looks so, and then with the containers to which the path leads.
-/

namespace ManifestChain

namespace Entries

/-- There is nothing under a key: it is missing, or its value is null. -/
def Lacks (node : Entries) (key : Text) : Prop :=
  node.get? key = none ∨ node.get? key = some .null

/-- The containers to which a path of keys leads from a mapping. The path may end early, at a key
under which there is nothing, and then there are no containers; otherwise it runs through mappings,
the last of which has a list of containers or nothing. -/
inductive Leads : Entries → List Text → List Value → Prop
  | early {node : Entries} {key : Text} (keys : List Text) (nothing : node.Lacks key) :
      Leads node (key :: keys) []
  | through {node below : Entries} {key : Text} {keys : List Text} {v : Value}
      {containers : List Value} (found : node.get? key = some v)
      (mapping : v.entries? = some below) (rest : Leads below keys containers) :
      Leads node (key :: keys) containers
  | nothing {node : Entries} (nothing : node.Lacks "containers") : Leads node [] []
  | listed {node : Entries} {mark : Mark} {containers : List Value}
      (found : node.get? "containers" = some (.list mark containers)) : Leads node [] containers

end Entries

namespace Value

/-- The keys under which a deployment has the mapping with its containers. -/
def podPath : List Text := ["spec", "template", "spec"]

/-- A mapping of a kind. -/
structure HasKind (v : Value) (kind : Text) (entries : Entries) : Prop where
  mapping : v.entries? = some entries
  kind : entries.get? "kind" = some (.text kind)

/-- A container that can be interpreted: a mapping that has a list of ports, or nothing for it. -/
def IsContainer (c : Value) : Prop :=
  ∃ entries, c.entries? = some entries ∧
    (entries.Lacks "ports" ∨ ∃ mark ports, entries.get? "ports" = some (.list mark ports))

/-- A container that declares a port: its list of ports is not empty. -/
def DeclaresPort (c : Value) : Prop :=
  ∃ entries mark port rest, c.entries? = some entries ∧
    entries.get? "ports" = some (.list mark (port :: rest))

/-- A deployment that can be interpreted, and its containers. -/
structure Interpretable (v : Value) (containers : List Value) : Prop where
  path : ∃ entries, v.HasKind "Deployment" entries ∧ entries.Leads podPath containers
  containers : ∀ c ∈ containers, c.IsContainer

variable {v c : Value} {node : Entries} {key : Text} {keys : List Text} {containers : List Value}

/-! ## Fields -/

theorem field_eq_null_iff : field node key = null ↔ node.Lacks key := by
  rw [field, Entries.Lacks]
  cases node.get? key with
  | none => simp
  | some v => simp

theorem field_eq_iff_of_ne_null (h : v ≠ null) : field node key = v ↔ node.get? key = some v := by
  rw [field]
  cases node.get? key with
  | none => simp [h.symm]
  | some u => simp

theorem field_eq_text_iff {t : Text} :
    field node key = text t ↔ node.get? key = some (text t) :=
  field_eq_iff_of_ne_null (by simp)

theorem field_eq_list_iff {mark : Mark} {items : List Value} :
    field node key = list mark items ↔ node.get? key = some (list mark items) :=
  field_eq_iff_of_ne_null (by simp)

theorem hasKind_iff {kind : Text} : v.HasKind kind node ↔
    v.entries? = some node ∧ field node "kind" = text kind := by
  rw [field_eq_text_iff]
  exact ⟨fun h => ⟨h.mapping, h.kind⟩, fun h => ⟨h.1, h.2⟩⟩

theorem deployment?_eq_some_iff_hasKind :
    v.deployment? = some node ↔ v.HasKind "Deployment" node := by
  rw [deployment?_eq_some_iff, hasKind_iff]
  rfl

/-! ## The path and the containers -/

theorem containersAlong?_eq_some_iff :
    containersAlong? keys node = some containers ↔ node.Leads keys containers := by
  induction keys generalizing node with
  | nil =>
      rw [containersAlong?]
      constructor
      · intro h
        split at h
        next hnull =>
          cases h
          exact .nothing (field_eq_null_iff.mp hnull)
        next mark items hlist =>
          cases h
          exact .listed (field_eq_list_iff.mp hlist)
        next => cases h
      · intro h
        cases h with
        | nothing hlacks => rw [field_eq_null_iff.mpr hlacks]
        | listed hfound => rw [field_eq_list_iff.mpr hfound]
  | cons key keys ih =>
      rw [containersAlong?]
      constructor
      · intro h
        split at h
        next hnull =>
          cases h
          exact .early keys (field_eq_null_iff.mp hnull)
        next hne =>
          split at h
          next below hmapping =>
            have hfound : node.get? key = some (field node key) :=
              (field_eq_iff_of_ne_null hne).mp rfl
            exact .through hfound hmapping (ih.mp h)
          next => cases h
      · intro h
        cases h with
        | early _ hlacks => rw [field_eq_null_iff.mpr hlacks]
        | @through _ below _ _ v _ hfound hmapping hrest =>
            have hne : v ≠ null := by
              rintro rfl
              cases hmapping
            rw [(field_eq_iff_of_ne_null hne).mpr hfound]
            simp only [hmapping, ih.mpr hrest]

theorem isContainer_eq_true_iff : c.isContainer = true ↔ c.IsContainer := by
  rw [isContainer, IsContainer]
  cases c.entries? with
  | none => simp
  | some entries =>
      simp only [Option.some.injEq, exists_eq_left', ← field_eq_null_iff, ← field_eq_list_iff]
      cases field entries "ports" <;> simp

theorem containers?_eq_some_iff_interpretable :
    v.containers? = some containers ↔ v.Interpretable containers := by
  rw [containers?_eq_some_iff, Option.bind_eq_some_iff]
  simp only [isContainer_eq_true_iff, deployment?_eq_some_iff_hasKind, podContainers?,
    containersAlong?_eq_some_iff]
  exact ⟨fun h => ⟨h.1, h.2⟩, fun h => ⟨h.path, h.containers⟩⟩

theorem ports_ne_nil_iff : Child.ports c ≠ [] ↔ c.DeclaresPort := by
  rw [Child.ports, DeclaresPort]
  cases c.entries? with
  | none => simp
  | some entries =>
      simp only [Option.some.injEq, exists_and_left, exists_eq_left', ← field_eq_list_iff]
      cases field entries "ports" with
      | list mark items => cases items <;> simp
      | _ => simp

theorem isSome_firstPort?_iff :
    (Child.firstPort? containers).isSome = true ↔ ∃ c ∈ containers, c.DeclaresPort := by
  rw [firstPort?_eq_findSome?, List.findSome?_isSome_iff]
  simp only [List.isSome_head?, ← ports_ne_nil_iff]

/-! ## Recognition -/

theorem classify_eq_service_iff :
    v.classify = .ok .service ↔ ∃ entries, v.HasKind "Service" entries := by
  simp only [hasKind_iff]
  constructor
  · intro h
    cases hdeployment : v.deployment? with
    | some entries =>
        cases hcontainers : v.containers? with
        | some containers =>
            rw [classify_of_containers? hcontainers] at h
            cases h
        | none =>
            rw [classify_of_malformed hdeployment hcontainers] at h
            obtain ⟨why, -, hwhy⟩ := Fault.map_eq_ok_iff.mp h
            cases hwhy
    | none =>
        rw [classify] at h
        split at h
        next => cases h
        next entries hmapping =>
          split at h
          next kind hkind =>
            split at h
            next hdeploys =>
              rw [hdeploys] at hkind
              rw [deployment?_eq_some_iff.mpr ⟨hmapping, hkind⟩] at hdeployment
              cases hdeployment
            next =>
              split at h
              next hserves => exact ⟨entries, hmapping, hkind.trans (congrArg text hserves)⟩
              next => cases h
          next => cases h
  · rintro ⟨entries, hmapping, hkind⟩
    rw [classify, hmapping]
    simp only [hkind]
    rfl

/-- A value is recognized as a service exactly if it is a mapping of kind `Service`, and as a
deployment exactly if it is one that can be interpreted, with the containers to which its path
leads. Ports are exposed by deployments only, by those with a container that declares a port. -/
theorem classify_iff (v : Value) :
    (v.classify = .ok .service ↔ ∃ entries, v.HasKind "Service" entries) ∧
      (∀ containers, v.classify = .ok (.deployment containers) ↔ v.Interpretable containers) ∧
        ∀ child : Child, child.exposesPorts = true ↔
          ∃ containers, child = .deployment containers ∧ ∃ c ∈ containers, c.DeclaresPort := by
  refine ⟨classify_eq_service_iff, fun containers => ?_, fun child => ?_⟩
  · rw [classify_eq_deployment_iff, containers?_eq_some_iff_interpretable]
  · cases child with
    | deployment containers => simp [Child.exposesPorts, isSome_firstPort?_iff]
    | service => simp [Child.exposesPorts]
    | other why => simp [Child.exposesPorts]

end Value

end ManifestChain
