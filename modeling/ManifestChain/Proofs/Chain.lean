import ManifestChain.Chain
import ManifestChain.Proofs.Application
import ManifestChain.Proofs.Service

/-!
# Chains step by step

Each member of a chain works on what was returned so far. The standard chain wraps the children and
the service for the first declared port in one application, which renders to their normal forms.
-/

namespace ManifestChain

variable {workload : Workload} {ctx ctx' : Context}

namespace Outcome

/-- What is returned so far after another member of a chain. -/
def after (sofar : Outcome) : Outcome → Outcome
  | unchanged => sofar
  | replaced result => replaced result

@[simp] theorem unchanged_after (next : Outcome) : unchanged.after next = next := by
  cases next <;> rfl

theorem value_after (sofar next : Outcome) (children : Value) :
    (sofar.after next).value children = next.value (sofar.value children) := by
  cases next <;> rfl

end Outcome

namespace Chain

/-- A chain that returns has run its first member on what was returned so far, and the others on
what that returned. -/
theorem runMembers_cons_eq_ok_iff {children member : Value} {rest : List Value}
    {sofar outcome : Outcome} :
    (runMembers workload children (member :: rest) sofar).runIn ctx = (.ok outcome, ctx') ↔
      ∃ next mid, (runMember member workload (sofar.value children)).runIn ctx = (.ok next, mid) ∧
        (runMembers workload children rest (sofar.after next)).runIn mid = (.ok outcome, ctx') := by
  rw [runMembers, Run.runIn_bind_eq_ok_iff]
  refine exists_congr fun next => exists_congr fun mid => and_congr_right fun _ => ?_
  cases next <;> rfl

theorem resolve_standard : resolve standard =
    .ok [.translator .serviceInjector, .translator .kubeAppWrapper] := by
  rfl

/-- The standard chain wraps what the injection of a service returned. -/
theorem translate_standard_steps {children : Value} {outcome : Outcome}
    (h : (translate workload children standard).runIn ctx = (.ok outcome, ctx')) :
    ∃ injected mid result, (Service.inject workload children).runIn ctx = (.ok injected, mid) ∧
      (Application.wrap? workload (injected.value children)).runIn mid = (.ok result, ctx') ∧
      outcome = .replaced (result.elim .null fun app => .ofList [app.toValue]) := by
  rw [translate, Run.runIn_ofExcept_bind_eq_ok_iff] at h
  obtain ⟨members, hmembers, h⟩ := h
  rw [resolve_standard] at hmembers
  cases hmembers
  obtain ⟨injected, mid, hinject, h⟩ := runMembers_cons_eq_ok_iff.mp h
  obtain ⟨applied, last, hwrap, hreturn⟩ := runMembers_cons_eq_ok_iff.mp h
  rw [Outcome.value_after] at hwrap
  obtain ⟨result, after, hresult, hreplaced⟩ := Run.runIn_bind_eq_ok_iff.mp hwrap
  refine ⟨injected, mid, result, hinject, ?_⟩
  cases result with
  | none =>
      cases hreplaced
      cases hreturn
      exact ⟨hresult, rfl⟩
  | some app =>
      cases hreplaced
      cases hreturn
      exact ⟨hresult, rfl⟩

/-- For a workload of texts and any well-formed children, the standard chain returns one application
or fails. Rendering the application succeeds, and its document holds the normal form of every child
in order, followed by the service for the first declared port, as it stands, if there is one; the
label of the workload stands in every template, in the selector of the application, and in the
labels and the selector of the service. -/
theorem translate_standard {name uid key : Text} {mark : Mark} {children : List Value}
    {outcome : Outcome} (hname : workload.name = .text name) (huid : workload.uid = .text uid)
    (hkey : ctx.labelKey = .text key) (hne : children ≠ [])
    (hchildren : ∀ child ∈ children, child.WellFormed)
    (h : (translate workload (.list mark children) standard).runIn ctx = (.ok outcome, ctx')) :
    ∃ (app : Application) (wrapped documents : List Value),
      outcome.value (.list mark children) = .ofList [app.toValue] ∧
      Service.Exposed workload [(.text key, .text uid)] children wrapped ∧
      (∀ service ∈ wrapped.drop children.length, service.IsNormal) ∧
      Value.manifests (outcome.value (.list mark children)) =
        .ok [Value.applicationManifest (.text name) [(.text key, .text uid)] documents] ∧
      List.Forall₂ (Template.Presents workload [(.text key, .text uid)]) wrapped documents ∧
      documents.length =
        children.length + if (children.findSome? Value.declaredPort?).isSome then 1 else 0 := by
  have hlabels : ctx.labels workload = .ok [(.text key, .text uid)] := by
    rw [Context.labels, hkey, huid]
    rfl
  obtain ⟨injected, mid, result, hinject, hresult, rfl⟩ := translate_standard_steps h
  obtain ⟨hmid, mark', wrapped, hvalue, hexposed⟩ := Service.inject_ok hne hlabels hinject
  rw [hvalue] at hresult
  obtain ⟨services, happend, hservices, hcount⟩ := hexposed.exists_append
  -- What is wrapped are the children and the service, both of which are well-formed.
  have hwrapped : wrapped ≠ [] := fun hnil =>
    hne (List.append_eq_nil_iff.mp (happend.symm.trans hnil)).1
  have hwellFormed (child : Value) (hchild : child ∈ wrapped) : child.WellFormed := by
    rw [happend] at hchild
    rcases List.mem_append.mp hchild with hchild | hservice
    · exact hchildren child hchild
    · obtain ⟨n, rfl⟩ := hservices child hservice
      exact Service.wellFormed_manifest hname n
  have hnormal (service : Value) (hservice : service ∈ wrapped.drop children.length) :
      service.IsNormal := by
    rw [happend, List.drop_left] at hservice
    obtain ⟨n, rfl⟩ := hservices service hservice
    exact Service.isNormal_manifest hname n
  obtain ⟨templates, rfl, hcaptures⟩ := Application.wrap?_ok hwrapped hmid hresult
  obtain ⟨documents, hdocuments, hpresents⟩ :=
    Application.manifest_of_captures workload.name hcaptures hwellFormed
  refine ⟨_, wrapped, documents, rfl, hexposed, hnormal, ?_, hpresents, ?_⟩
  · rw [← hname]
    change [_].mapM Value.manifest = _
    rw [List.mapM_cons, hdocuments]
    rfl
  · rw [← hpresents.length_eq, happend, List.length_append, hcount]

/-- A deployment that declares a port is wrapped together with a service. -/
theorem translate_standard_deployment :
    let workload : Workload := ⟨"w", "", "u"⟩
    let deployment : Value := .ofEntries
      [("kind", "Deployment"),
        ("spec", .ofEntries [("template", .ofEntries [("spec", .ofEntries [("containers", .ofList
          [.ofEntries [("ports", .ofList [.ofEntries [("containerPort", .int 80)]])]])])])])]
    ∃ outcome ctx' documents,
      (translate workload (.list none [deployment]) standard).runIn .initial = (.ok outcome, ctx') ∧
      Value.manifests (outcome.value (.list none [deployment])) =
        .ok [Value.applicationManifest "w" [(.text defaultLabelKey, "u")] documents] ∧
      documents.length = 2 := by
  intro workload deployment
  have hreturns : ((translate workload (.list none [deployment]) standard).runIn
      .initial).1.toOption.isSome = true := by
    decide +kernel
  have hdeclares : ([deployment].findSome? Value.declaredPort?).isSome = true := by rfl
  have hchildren : ∀ child ∈ [deployment], child.WellFormed := by
    simp [deployment, Value.ofEntries, Value.ofList, Value.WellFormed, Value.AllWellFormed,
      Value.EntriesWellFormed, Value.Distinct, Value.equal_text, Text.ofString, Text.ofChars]
  generalize hrun : (translate workload (.list none [deployment]) standard).runIn .initial = result
  rw [hrun] at hreturns
  obtain ⟨_ | outcome, ctx'⟩ := result
  · cases hreturns
  · obtain ⟨-, -, documents, -, -, -, hmanifests, -, hlength⟩ := translate_standard rfl rfl rfl
      (List.cons_ne_nil _ _) hchildren hrun
    rw [hdeclares] at hlength
    exact ⟨outcome, ctx', documents, rfl, hmanifests, hlength⟩

end Chain

end ManifestChain
