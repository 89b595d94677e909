import ManifestChain.Proofs.Chain

/-!
# Chains of registered names

Once children are wrapped, an injector finds one application or nothing, and leaves either as it is.
So a chain of registered names does what its normal form does: the injectors before the first
wrapper, then all wrappers. Injectors alone repeat one service, for a service declares no port.
-/

namespace ManifestChain

variable {workload : Workload} {ctx ctx' : Context}

namespace Outcome

/-- What a wrapper returns: nothing, or one application. -/
inductive Wrapped : Outcome → Prop
  | nothing : Wrapped (.replaced .null)
  | application (app : Application) : Wrapped (.replaced (.ofList [app.toValue]))

theorem wrapped_of_run {children : Value} {next : Outcome}
    (h : (Translator.kubeAppWrapper.run workload children).runIn ctx = (.ok next, ctx')) :
    next.Wrapped := by
  obtain ⟨result, mid, -, hreplaced⟩ := Run.runIn_bind_eq_ok_iff.mp h
  cases result with
  | none =>
      cases hreplaced
      exact .nothing
  | some app =>
      cases hreplaced
      exact .application app

theorem Wrapped.after {sofar next : Outcome} (h : next.Wrapped) : (sofar.after next).Wrapped := by
  cases h with
  | nothing => exact .nothing
  | application app => exact .application app

/-- An injector leaves what a wrapper returned as it is, and has nothing to warn of. -/
theorem Wrapped.runMember_injector {sofar : Outcome} (h : sofar.Wrapped) (workload : Workload)
    (children : Value) (ctx : Context) : ∃ next,
      (Chain.runMember (.translator .serviceInjector) workload (sofar.value children)).runIn ctx =
        (.ok next, ctx) ∧ sofar.after next = sofar := by
  cases h with
  | nothing => exact ⟨.replaced .null, rfl, rfl⟩
  | application app => exact ⟨.unchanged, rfl, rfl⟩

end Outcome

namespace Chain

/-- The chain that yields the names of some translators, one after the other. -/
def ofTranslators (ts : List Translator) : Value := .tuple (ts.map fun t => .text t.name)

/-- A chain yields the names of some translators. -/
def Names (chain : Value) (ts : List Translator) : Prop :=
  chain.items? = some (ts.map fun t => .text t.name)

/-- The injectors before the first wrapper, then all wrappers. -/
def normalForm (ts : List Translator) : List Translator :=
  List.replicate (ts.takeWhile (· = .serviceInjector)).length .serviceInjector ++
    List.replicate (ts.count .kubeAppWrapper) .kubeAppWrapper

theorem normalForm_injector (ts : List Translator) :
    normalForm (.serviceInjector :: ts) = .serviceInjector :: normalForm ts := by
  simp [normalForm, List.replicate_succ]

theorem normalForm_wrapper (ts : List Translator) :
    normalForm (.kubeAppWrapper :: ts) =
      .kubeAppWrapper :: List.replicate (ts.count .kubeAppWrapper) .kubeAppWrapper := by
  simp [normalForm, List.replicate_succ]

theorem Names.resolve_eq {chain : Value} {ts : List Translator} (h : Names chain ts) :
    resolve chain = .ok (ts.map .translator) := by
  have hmembers : List.Forall₂ (fun member v => resolveMember member = .ok v)
      (ts.map fun t => Value.text t.name) (ts.map .translator) := by
    rw [List.forall₂_map_left_iff, List.forall₂_map_right_iff, List.forall₂_same]
    intro t _
    cases t <;> rfl
  rw [resolve, h]
  exact Fault.mapM_eq_ok_iff.mpr hmembers

theorem Names.runIn_translate {chain : Value} {ts : List Translator} (h : Names chain ts)
    (children : Value) : (translate workload children chain).runIn ctx =
      (runMembers workload children (ts.map .translator) .unchanged).runIn ctx := by
  rw [translate, Run.runIn_bind, Run.runIn_ofExcept, h.resolve_eq]

/-- After a member that returns, the others work on what is returned so far. -/
theorem runIn_runMembers_cons {children member : Value} (rest : List Value) {sofar next : Outcome}
    {mid : Context}
    (h : (runMember member workload (sofar.value children)).runIn ctx = (.ok next, mid)) :
    (runMembers workload children (member :: rest) sofar).runIn ctx =
      (runMembers workload children rest (sofar.after next)).runIn mid := by
  rw [runMembers, Run.runIn_bind, h]
  cases next <;> rfl

/-- Two chains that begin with one member run alike, if what follows does after any outcome that
the member has. -/
theorem runIn_runMembers_cons_congr {children member : Value} {rest rest' : List Value}
    {sofar : Outcome} (h : ∀ next mid,
      (runMember member workload (sofar.value children)).runIn ctx = (.ok next, mid) →
        (runMembers workload children rest (sofar.after next)).runIn mid =
          (runMembers workload children rest' (sofar.after next)).runIn mid) :
    (runMembers workload children (member :: rest) sofar).runIn ctx =
      (runMembers workload children (member :: rest') sofar).runIn ctx := by
  cases hmember : (runMember member workload (sofar.value children)).runIn ctx with
  | mk result mid =>
      cases result with
      | error e => rw [runMembers, runMembers, Run.runIn_bind, Run.runIn_bind, hmember]
      | ok next =>
          rw [runIn_runMembers_cons rest hmember, runIn_runMembers_cons rest' hmember]
          exact h next mid hmember

/-- Once the children are wrapped, the injectors of a chain do nothing. -/
theorem runIn_runMembers_of_wrapped {children : Value} {ts : List Translator} {sofar : Outcome}
    (h : sofar.Wrapped) :
    (runMembers workload children (ts.map .translator) sofar).runIn ctx =
      (runMembers workload children ((List.replicate (ts.count .kubeAppWrapper)
        Translator.kubeAppWrapper).map .translator) sofar).runIn ctx := by
  induction ts generalizing sofar ctx with
  | nil => rfl
  | cons t ts ih =>
      cases t with
      | serviceInjector =>
          obtain ⟨next, hinject, hafter⟩ := h.runMember_injector workload children ctx
          rw [List.map_cons, runIn_runMembers_cons _ hinject, hafter,
            List.count_cons_of_ne (by decide)]
          exact ih h
      | kubeAppWrapper =>
          rw [List.count_cons_self, List.replicate_succ, List.map_cons, List.map_cons]
          exact runIn_runMembers_cons_congr fun next mid hnext =>
            ih (Outcome.Wrapped.after (Outcome.wrapped_of_run hnext))

/-- Translators do what those of the normal form do. -/
theorem runIn_runMembers_normalForm {children : Value} {ts : List Translator} {sofar : Outcome} :
    (runMembers workload children (ts.map .translator) sofar).runIn ctx =
      (runMembers workload children ((normalForm ts).map .translator) sofar).runIn ctx := by
  induction ts generalizing sofar ctx with
  | nil => rfl
  | cons t ts ih =>
      cases t with
      | serviceInjector =>
          rw [normalForm_injector, List.map_cons, List.map_cons]
          exact runIn_runMembers_cons_congr fun next mid _ => ih
      | kubeAppWrapper =>
          rw [normalForm_wrapper, List.map_cons, List.map_cons]
          exact runIn_runMembers_cons_congr fun next mid hnext =>
            runIn_runMembers_of_wrapped (Outcome.Wrapped.after (Outcome.wrapped_of_run hnext))

end Chain

/-! ## Injectors alone -/

/-- Another injection adds another copy: the first declared port is that of a child still. -/
theorem Service.Repeated.inject {mark : Mark} {children : List Value} {labels : Entries}
    {count : Nat} {sofar next : Outcome} (hsofar : Repeated workload labels children count sofar)
    (hne : children ≠ []) (hlabels : ctx.labels workload = .ok labels)
    (h : (Service.inject workload (sofar.value (.list mark children))).runIn ctx =
      (.ok next, ctx')) :
    ctx'.labels workload = .ok labels ∧
      Repeated workload labels children (count + 1) (sofar.after next) := by
  unfold Repeated at hsofar ⊢
  cases hport : children.findSome? Value.declaredPort? with
  | none =>
      rw [hport] at hsofar
      subst hsofar
      obtain ⟨hlast, hnext⟩ := inject_repeated hne hlabels h
      unfold Repeated at hnext
      rw [hport] at hnext
      subst hnext
      exact ⟨hlast, rfl⟩
  | some port =>
      rw [hport] at hsofar
      obtain ⟨n, hn, rfl⟩ := hsofar
      obtain ⟨hlast, hnext⟩ := inject_repeated (by simp [hne]) hlabels h
      unfold Repeated at hnext
      rw [List.findSome?_append, hport] at hnext
      obtain ⟨m, hm, rfl⟩ := hnext
      obtain rfl : n = m := Option.some.inj (hn.symm.trans hm)
      refine ⟨hlast, n, hn, ?_⟩
      rw [Outcome.after, List.append_assoc, List.replicate_append_replicate]

namespace Chain

/-- Injectors that follow others add as many copies more. -/
theorem repeated_of_injectors {mark : Mark} {children : List Value} {labels : Entries}
    {count more : Nat} {sofar outcome : Outcome}
    (hsofar : Service.Repeated workload labels children count sofar) (hne : children ≠ [])
    (hlabels : ctx.labels workload = .ok labels)
    (h : (runMembers workload (.list mark children)
      (List.replicate more (.translator .serviceInjector)) sofar).runIn ctx = (.ok outcome, ctx')) :
    Service.Repeated workload labels children (count + more) outcome := by
  induction more generalizing count sofar ctx with
  | zero =>
      cases h
      exact hsofar
  | succ more ih =>
      obtain ⟨next, mid, hinject, h⟩ := runMembers_cons_eq_ok_iff.mp h
      obtain ⟨hmid, hnext⟩ := hsofar.inject hne hlabels hinject
      rw [Nat.add_comm more, ← Nat.add_assoc]
      exact ih hnext hmid h

/-- Every chain of registered names does what its normal form does: it returns the same or has the
same fault, and it leaves the same warnings. A chain of injectors that returns for some children has
repeated one service as often as it injects, or left the children as they are. -/
theorem translate_normalForm {chain : Value} {ts : List Translator} (h : Names chain ts)
    (workload : Workload) (ctx : Context) :
    (∀ children, (translate workload children chain).runIn ctx =
      (translate workload children (ofTranslators (normalForm ts))).runIn ctx) ∧
    ∀ (mark : Mark) (children : List Value) (key : Text) (outcome : Outcome) (ctx' : Context),
      ctx.labelKey = .text key → children ≠ [] → .kubeAppWrapper ∉ ts → ts ≠ [] →
      (translate workload (.list mark children) chain).runIn ctx = (.ok outcome, ctx') →
      Service.Repeated workload [(.text key, workload.uid)] children ts.length outcome := by
  have hnormal : Names (ofTranslators (normalForm ts)) (normalForm ts) := rfl
  refine ⟨fun children => ?_, fun mark children key outcome ctx' hkey hne hwrapper hts hrun => ?_⟩
  · rw [h.runIn_translate, hnormal.runIn_translate, runIn_runMembers_normalForm]
  · have hlabels : ctx.labels workload = .ok [(.text key, workload.uid)] := by
      rw [Context.labels, hkey]
      rfl
    obtain ⟨first, rest, rfl⟩ := List.exists_cons_of_ne_nil hts
    have hinjectors : first :: rest = List.replicate (rest.length + 1) .serviceInjector := by
      refine List.eq_replicate_iff.mpr ⟨rfl, fun t ht => ?_⟩
      cases t with
      | serviceInjector => rfl
      | kubeAppWrapper => exact absurd ht hwrapper
    rw [h.runIn_translate, hinjectors, List.map_replicate, List.replicate_succ] at hrun
    -- The first injection is of the children themselves, each other one of what the last returned.
    obtain ⟨next, mid, hinject, hrest⟩ := runMembers_cons_eq_ok_iff.mp hrun
    obtain ⟨hmid, hnext⟩ := Service.inject_repeated hne hlabels hinject
    rw [Outcome.unchanged_after] at hrest
    rw [List.length_cons, Nat.add_comm]
    exact repeated_of_injectors hnext hne hmid hrest

/-- An injector between two wrappers does nothing, and two injectors give a deployment with a port
two services. -/
theorem translate_normalForm_deployment :
    let workload : Workload := ⟨"w", "", "u"⟩
    let deployment : Value := .ofEntries
      [("kind", "Deployment"),
        ("spec", .ofEntries [("template", .ofEntries [("spec", .ofEntries [("containers", .ofList
          [.ofEntries [("ports", .ofList [.ofEntries [("containerPort", .int 80)]])]])])])])]
    let service : Value := Service.manifest workload (.int 80)
      [(.text defaultLabelKey, "u")] [(.text defaultLabelKey, "u")]
    (translate workload (.list none [deployment])
        (.ofList ["kube-app-wrapper", "service-injector", "kube-app-wrapper"])).runIn .initial =
      (translate workload (.list none [deployment])
        (.tuple ["kube-app-wrapper", "kube-app-wrapper"])).runIn .initial ∧
    ∃ ctx', (translate workload (.list none [deployment])
        (.ofList ["service-injector", "service-injector"])).runIn .initial =
      (.ok (.replaced (.ofList [deployment, service, service])), ctx') := by
  intro workload deployment service
  have hwrappers : Names (.ofList ["kube-app-wrapper", "service-injector", "kube-app-wrapper"])
      [.kubeAppWrapper, .serviceInjector, .kubeAppWrapper] := rfl
  have hinjectors : Names (.ofList ["service-injector", "service-injector"])
      [.serviceInjector, .serviceInjector] := rfl
  refine ⟨(translate_normalForm hwrappers workload .initial).1 _, ?_⟩
  have hreturns : ((translate workload (.list none [deployment])
      (.ofList ["service-injector", "service-injector"])).runIn .initial).1.toOption.isSome =
        true := by
    decide +kernel
  generalize hrun : (translate workload (.list none [deployment])
    (.ofList ["service-injector", "service-injector"])).runIn .initial = result
  rw [hrun] at hreturns
  obtain ⟨_ | outcome, ctx'⟩ := result
  · cases hreturns
  · obtain ⟨n, hn, rfl⟩ := (translate_normalForm hinjectors workload .initial).2 none [deployment]
      defaultLabelKey outcome ctx' rfl (List.cons_ne_nil _ _) (by decide) (List.cons_ne_nil _ _)
      hrun
    cases hn
    exact ⟨ctx', rfl⟩

end Chain

end ManifestChain
