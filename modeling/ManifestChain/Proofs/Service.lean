import ManifestChain.Proofs.Context
import ManifestChain.Proofs.Payload.NormalForm
import ManifestChain.Service

/-!
# The service that is added

Where the injection of a service returns, it has found the first port that a deployment among the
children declares, and its number is valid: the children are followed by the service for it. Without
a declared port the children stay as they are.
-/

namespace ManifestChain

/-- The first port that a child declares, if it is a deployment. -/
def Child.declaredPort? : Child → Option Value
  | deployment containers => firstPort? containers
  | _ => none

/-- The first port that a value declares, if it is a deployment that can be interpreted. -/
def Value.declaredPort? (v : Value) : Option Value := v.classify.toOption.bind Child.declaredPort?

namespace Service

variable {workload : Workload} {ctx ctx' : Context}

theorem exposedPort_eq_ok_iff {deployment port : Value} {index : Nat} {n : Int} :
    exposedPort workload deployment port index = .ok n ↔ portNumber? port = some n := by
  unfold exposedPort
  cases portNumber? port with
  | some m => simp
  | none =>
      refine ⟨fun h => ?_, fun h => by cases h⟩
      obtain ⟨fault, -, h⟩ := Fault.bind_eq_ok_iff.mp h
      cases h

/-- The number of the first declared port among values, if there is one. -/
def FirstPort (children : List Value) (found : Option Int) : Prop :=
  match children.findSome? Value.declaredPort? with
  | none => found = none
  | some port => ∃ n, portNumber? port = some n ∧ found = some n

theorem firstPort_cons_of_some {child port : Value} {n : Int} (rest : List Value)
    (hport : child.declaredPort? = some port) (hn : portNumber? port = some n) :
    FirstPort (child :: rest) (some n) := by
  rw [FirstPort, List.findSome?_cons, hport]
  exact ⟨n, hn, rfl⟩

theorem firstPort_cons_of_none {child : Value} {rest : List Value} {found : Option Int}
    (hnone : child.declaredPort? = none) (hrest : FirstPort rest found) :
    FirstPort (child :: rest) found := by
  rwa [FirstPort, List.findSome?_cons, hnone]

/-- A search that returns has found the number of the first declared port, and leaves the key of the
label as it was. -/
theorem findPort_ok {index : Nat} {children : List Value} {found : Option Int}
    (h : (findPort workload index children).runIn ctx = (.ok found, ctx')) :
    FirstPort children found ∧ ctx'.labelKey = ctx.labelKey := by
  induction children generalizing index ctx with
  | nil =>
      cases h
      exact ⟨rfl, rfl⟩
  | cons child rest ih =>
      obtain ⟨recognized, hclassify, h⟩ := Run.runIn_ofExcept_bind_eq_ok_iff.mp h
      have hdeclared : child.declaredPort? = recognized.declaredPort? := by
        rw [Value.declaredPort?, hclassify]
        rfl
      -- Only a deployment with ports ends the search; the others leave a warning at most.
      cases recognized with
      | deployment containers =>
          simp only at h
          split at h
          next port hport =>
            obtain ⟨n, hn, h⟩ := Run.runIn_ofExcept_bind_eq_ok_iff.mp h
            cases h
            have hnumber := exposedPort_eq_ok_iff.mp hn
            exact ⟨firstPort_cons_of_some rest (hdeclared.trans hport) hnumber, rfl⟩
          next hport =>
            obtain ⟨hfound, hkey⟩ := ih h
            exact ⟨firstPort_cons_of_none (hdeclared.trans hport) hfound, hkey⟩
      | service =>
          obtain ⟨hfound, hkey⟩ := ih h
          exact ⟨firstPort_cons_of_none hdeclared hfound, hkey⟩
      | other why =>
          simp only at h
          split at h
          next hmalformed =>
            obtain ⟨warning, -, h⟩ := Run.runIn_ofExcept_bind_eq_ok_iff.mp h
            rw [Run.runIn_bind, Run.runIn_warn] at h
            obtain ⟨hfound, hkey⟩ := ih h
            exact ⟨firstPort_cons_of_none hdeclared hfound, hkey⟩
          next =>
            obtain ⟨hfound, hkey⟩ := ih h
            exact ⟨firstPort_cons_of_none hdeclared hfound, hkey⟩

/-- The children that an injection returns: those it was given, and the service for the first port
that one of them declares. -/
def Exposed (workload : Workload) (labels : Entries) (children exposed : List Value) : Prop :=
  match children.findSome? Value.declaredPort? with
  | none => exposed = children
  | some port => ∃ n, portNumber? port = some n ∧
      exposed = children ++ [manifest workload (.int n) labels labels]

/-- What follows the children are services for a port, one or none. -/
theorem Exposed.exists_append {labels : Entries} {children exposed : List Value}
    (h : Exposed workload labels children exposed) : ∃ services, exposed = children ++ services ∧
      (∀ service ∈ services, ∃ n : Int, service = manifest workload (.int n) labels labels) ∧
      services.length = if (children.findSome? Value.declaredPort?).isSome then 1 else 0 := by
  unfold Exposed at h
  split at h
  next hnone => exact ⟨[], by rw [h, List.append_nil], by simp, by rw [hnone]; rfl⟩
  next port hport =>
    obtain ⟨n, -, h⟩ := h
    exact ⟨_, h, fun service hservice => ⟨n, List.mem_singleton.mp hservice⟩, by rw [hport]; rfl⟩

/-! ## The service for a port -/

theorem wellFormed_manifest {name uid key : Text} (hname : workload.name = .text name) (n : Int) :
    (manifest workload (.int n) [(.text key, .text uid)] [(.text key, .text uid)]).WellFormed := by
  simp [manifest, hname, Value.ofEntries, Value.ofList, Value.WellFormed, Value.AllWellFormed,
    Value.EntriesWellFormed, Value.Distinct, Value.equal_text, Text.ofString, Text.ofChars]

/-- The service for a port is decoded from its payload as it stands. -/
theorem isNormal_manifest {name uid key : Text} (hname : workload.name = .text name) (n : Int) :
    (manifest workload (.int n) [(.text key, .text uid)] [(.text key, .text uid)]).IsNormal := by
  obtain ⟨form, hform⟩ : ∃ form, Json.toValue form =
      manifest workload (.int n) [(.text key, .text uid)] [(.text key, .text uid)] := by
    rw [manifest, hname]
    exact ⟨.object
      [("apiVersion", .text "v1"),
        ("kind", .text Value.serviceKind),
        ("metadata", .object [("name", .text name), ("labels", .object [(key, .text uid)])]),
        ("spec", .object
          [("selector", .object [(key, .text uid)]),
            ("type", .text "LoadBalancer"),
            ("ports", .array
              [.object [("name", .text name), ("port", .int n), ("targetPort", .int n)]])])], rfl⟩
  rw [← hform]
  exact Value.isNormal_toValue form

/-! ## The injection -/

theorem build_ok {port service : Value} {labels : Entries}
    (hlabels : ctx.labels workload = .ok labels)
    (h : (build workload port).runIn ctx = (.ok service, ctx')) :
    service = manifest workload port labels labels ∧ ctx' = ctx := by
  rw [build, Run.runIn_labels_bind_eq_ok_iff] at h
  obtain ⟨_, hfirst, h⟩ := h
  obtain ⟨_, hsecond, h⟩ := Run.runIn_labels_bind_eq_ok_iff.mp h
  rw [hlabels] at hfirst hsecond
  cases hfirst
  cases hsecond
  cases h
  exact ⟨rfl, rfl⟩

/-- What a number of injections make of some children: the children with as many copies of the
service for the first port that one of them declares, or the children as they are. -/
def Repeated (workload : Workload) (labels : Entries) (children : List Value) (count : Nat)
    (outcome : Outcome) : Prop :=
  match children.findSome? Value.declaredPort? with
  | none => outcome = .unchanged
  | some port => ∃ n, portNumber? port = some n ∧ outcome = .replaced (.ofList
      (children ++ List.replicate count (manifest workload (.int n) labels labels)))

/-- An injection that returns adds one service or none, and leaves the label of the workload. -/
theorem inject_repeated {mark : Mark} {children : List Value} {labels : Entries}
    {outcome : Outcome} (hne : children ≠ []) (hlabels : ctx.labels workload = .ok labels)
    (h : (inject workload (.list mark children)).runIn ctx = (.ok outcome, ctx')) :
    ctx'.labels workload = .ok labels ∧ Repeated workload labels children 1 outcome := by
  rw [inject, Value.isTruthy_list mark hne] at h
  obtain ⟨found, mid, hfind, h⟩ := Run.runIn_bind_eq_ok_iff.mp h
  obtain ⟨hfound, hkey⟩ := findPort_ok hfind
  have hmid : mid.labels workload = .ok labels := by rwa [Context.labels, hkey]
  unfold FirstPort at hfound
  unfold Repeated
  cases hport : children.findSome? Value.declaredPort? with
  | none =>
      rw [hport] at hfound
      subst hfound
      cases h
      exact ⟨hmid, rfl⟩
  | some port =>
      rw [hport] at hfound
      obtain ⟨n, hn, rfl⟩ := hfound
      obtain ⟨service, _, hservice, hreturn⟩ := Run.runIn_bind_eq_ok_iff.mp h
      obtain ⟨rfl, rfl⟩ := build_ok hmid hservice
      cases hreturn
      exact ⟨hmid, n, hn, rfl⟩

/-- An injection that returns for some children returns them with the service, if there is one. -/
theorem inject_ok {mark : Mark} {children : List Value} {labels : Entries} {outcome : Outcome}
    (hne : children ≠ []) (hlabels : ctx.labels workload = .ok labels)
    (h : (inject workload (.list mark children)).runIn ctx = (.ok outcome, ctx')) :
    ctx'.labels workload = .ok labels ∧ ∃ mark' exposed,
      outcome.value (.list mark children) = .list mark' exposed ∧
        Exposed workload labels children exposed := by
  obtain ⟨hlast, hrepeated⟩ := inject_repeated hne hlabels h
  refine ⟨hlast, ?_⟩
  unfold Repeated at hrepeated
  unfold Exposed
  cases hport : children.findSome? Value.declaredPort? with
  | none =>
      rw [hport] at hrepeated
      subst hrepeated
      exact ⟨mark, children, rfl, rfl⟩
  | some port =>
      rw [hport] at hrepeated
      obtain ⟨n, hn, rfl⟩ := hrepeated
      exact ⟨none, _, rfl, n, hn, rfl⟩

end Service

end ManifestChain
