import ManifestChain.Proofs.Chain

/-!
# Chains in two parts

A chain of registered names and translators does what its first part does and then, if that returns,
what its second part does with the result. Names are looked up before anything runs, so the first
one that is not registered ends the whole, whatever stands before it.
-/

namespace ManifestChain

/-- A translator is registered under every text among the members of a chain. -/
def Chain.Registered (members : List Value) : Prop :=
  ∀ t, .text t ∈ members → ∃ found : Translator, found.name = t

theorem Translator.mem_all (t : Translator) : t ∈ all := by
  cases t <;> decide

/-- No translator is found under a name exactly if none has it. -/
theorem Translator.ofName?_eq_none_iff {name : Text} :
    ofName? name = none ↔ ¬∃ found : Translator, found.name = name := by
  rw [ofName?, List.find?_eq_none]
  simp only [decide_eq_true_eq]
  exact ⟨fun h ⟨found, hname⟩ => h found found.mem_all hname,
    fun h found _ hname => h ⟨found, hname⟩⟩

variable {workload : Workload}

namespace Outcome

theorem after_assoc (first second third : Outcome) :
    (first.after second).after third = first.after (second.after third) := by
  cases third <;> rfl

end Outcome

namespace Chain

/-! ## Names before anything else -/

/-- Looking up a member fails only for a text that no translator has for a name. -/
theorem of?_resolveMember (member : Value) : Fault.of? (resolveMember member) =
    match member with
    | .text t => if (Translator.ofName? t).isSome then none else some (.unknownTranslator member t)
    | _ => none := by
  cases member with
  | text t => cases h : Translator.ofName? t <;>
      simp [resolveMember, lookup, h, Fault.of?, Except.map]
  | _ => rfl

theorem of?_resolveMember_of_registered {members : List Value} (h : Registered members)
    {member : Value} (hmember : member ∈ members) : Fault.of? (resolveMember member) = none := by
  rw [of?_resolveMember]
  cases member with
  | text t =>
      have hfound : Translator.ofName? t ≠ none :=
        fun hnone => Translator.ofName?_eq_none_iff.mp hnone (h t hmember)
      exact if_pos (Option.isSome_iff_ne_none.mpr hfound)
  | _ => rfl

theorem exists_resolved_of_registered {members : List Value} (h : Registered members) :
    ∃ resolved, members.mapM resolveMember = .ok resolved := by
  have hnone : Fault.of? (members.mapM resolveMember) = none := by
    rw [Fault.of?_mapM, List.findSome?_eq_none_iff]
    exact fun member hmember => of?_resolveMember_of_registered h hmember
  cases hresolved : members.mapM resolveMember with
  | ok resolved => exact ⟨resolved, rfl⟩
  | error e => simp [hresolved] at hnone

/-- The first name that is not registered decides, whatever follows. -/
theorem resolve_unknown {chain : Value} {before rest : List Value} {t : Text}
    (hchain : chain.items? = some (before ++ .text t :: rest)) (hbefore : Registered before)
    (ht : ¬∃ found : Translator, found.name = t) :
    resolve chain = .error (.unknownTranslator (.text t) t) := by
  rw [resolve, hchain]
  apply Fault.of?_eq_some_iff.mp
  rw [Fault.of?_mapM, List.findSome?_append, List.findSome?_eq_none_iff.mpr fun member hmember =>
    of?_resolveMember_of_registered hbefore hmember, Option.none_or, List.findSome?_cons,
    of?_resolveMember]
  simp [Translator.ofName?_eq_none_iff.mpr ht]

/-! ## One part after the other -/

/-- Members in two parts: the second works on what is returned so far after the first. -/
theorem runMembers_append (children : Value) (xs ys : List Value) (sofar : Outcome) :
    runMembers workload children (xs ++ ys) sofar =
      runMembers workload children xs sofar >>= runMembers workload children ys := by
  induction xs generalizing sofar with
  | nil => rfl
  | cons member rest ih =>
      rw [List.cons_append, runMembers, runMembers, bind_assoc]
      refine bind_congr fun next => ?_
      cases next with
      | unchanged => exact ih sofar
      | replaced result => exact ih (.replaced result)

/-- What is returned so far may as well be the children of a new run. -/
theorem runMembers_eq_after (children : Value) (members : List Value) (sofar : Outcome) :
    runMembers workload children members sofar =
      sofar.after <$> runMembers workload (sofar.value children) members .unchanged := by
  induction members generalizing children sofar with
  | nil => rfl
  | cons member rest ih =>
      rw [runMembers, runMembers, map_bind]
      refine bind_congr fun next => ?_
      cases next with
      | unchanged => exact ih children sofar
      | replaced result =>
          change runMembers workload children rest (.replaced result) = _ <$>
            runMembers workload (sofar.value children) rest (.replaced result)
          rw [ih children, ih (sofar.value children), Functor.map_map]
          simp only [← Outcome.after_assoc]
          rfl

/-- A chain in two parts, all names in which are registered, returns what its second part makes of
what the first one returned, and ends in the fault of the first part to fail; the warnings are those
of both in turn. A chain with a name that is not registered fails with the first such name before
any translator runs, so it leaves the context as it was. -/
theorem translate_append {whole first second : Value} {xs ys : List Value}
    (hfirst : first.items? = some xs) (hsecond : second.items? = some ys)
    (hwhole : whole.items? = some (xs ++ ys)) (workload : Workload) (children : Value) :
    (Registered (xs ++ ys) →
      (do
        let outcome ← translate workload children whole
        return outcome.value children : Run Value) = do
      let before ← translate workload children first
      let outcome ← translate workload (before.value children) second
      return outcome.value (before.value children)) ∧
    ∀ (before rest : List Value) (t : Text), xs ++ ys = before ++ .text t :: rest →
      Registered before → (¬∃ found : Translator, found.name = t) → ∀ ctx,
      (translate workload children whole).runIn ctx =
        (.error (.unknownTranslator (.text t) t), ctx) := by
  refine ⟨fun hregistered => ?_, fun before rest t hmembers hbefore ht ctx => ?_⟩
  · obtain ⟨ms, hms⟩ := exists_resolved_of_registered fun t ht =>
      hregistered t (List.mem_append_left ys ht)
    obtain ⟨ns, hns⟩ := exists_resolved_of_registered fun t ht =>
      hregistered t (List.mem_append_right xs ht)
    have hresolve : resolve whole = .ok (ms ++ ns) := by
      rw [resolve, hwhole]
      simp only [List.mapM_append, hms, hns]
      rfl
    have hrun (chain : Value) (members : List Value) (h : resolve chain = .ok members)
        (children : Value) : translate workload children chain =
          runMembers workload children members .unchanged := by
      rw [translate, h]
      rfl
    rw [hrun whole _ hresolve, hrun first ms (by rw [resolve, hfirst]; exact hms),
      runMembers_append, bind_assoc]
    refine bind_congr fun next => ?_
    rw [hrun second ns (by rw [resolve, hsecond]; exact hns), runMembers_eq_after, bind_map_left]
    simp only [Outcome.value_after]
  · rw [hmembers] at hwhole
    rw [translate, Run.runIn_bind, Run.runIn_ofExcept, resolve_unknown hwhole hbefore ht]

/-- The standard chain in its two parts for a deployment with a port, and a chain with two names
that are not registered after an injector and a translator. -/
theorem translate_append_injector_wrapper :
    let workload : Workload := ⟨"w", "", "u"⟩
    let children : Value := .ofList [.ofEntries
      [("kind", "Deployment"),
        ("spec", .ofEntries [("template", .ofEntries [("spec", .ofEntries [("containers", .ofList
          [.ofEntries [("ports", .ofList [.ofEntries [("containerPort", .int 80)]])]])])])])]]
    Registered ["service-injector", "kube-app-wrapper"] ∧
    (do
      let outcome ← translate workload children standard
      return outcome.value children : Run Value) = (do
      let before ← translate workload children (.ofList ["service-injector"])
      let outcome ← translate workload (before.value children) (.ofList ["kube-app-wrapper"])
      return outcome.value (before.value children)) ∧
    (translate workload children
        (.ofList ["service-injector", .constant .null, "wrapper", "injector"])).runIn .initial =
      (.error (.unknownTranslator "wrapper" "wrapper"), .initial) := by
  intro workload children
  have hregistered : Registered ["service-injector", "kube-app-wrapper"] := by
    intro t ht
    simp only [List.mem_cons, Value.text.injEq, List.not_mem_nil, or_false] at ht
    rcases ht with rfl | rfl
    · exact ⟨.serviceInjector, rfl⟩
    · exact ⟨.kubeAppWrapper, rfl⟩
  have hitems (xs : List Value) : (Value.ofList xs).items? = some xs := rfl
  refine ⟨hregistered, (translate_append (hitems ["service-injector"])
    (hitems ["kube-app-wrapper"]) (hitems _) workload children).1 hregistered, ?_⟩
  refine (translate_append (hitems ["service-injector", .constant .null])
    (hitems ["wrapper", "injector"]) (hitems _) workload children).2
    ["service-injector", .constant .null] ["injector"] "wrapper" rfl (fun t ht => ?_) ?_ .initial
  · simp only [List.mem_cons, Value.text.injEq, List.not_mem_nil, or_false, reduceCtorEq] at ht
    exact ⟨.serviceInjector, ht.symm⟩
  · rintro ⟨found, hname⟩
    cases found <;> exact absurd hname (by decide)

end Chain

end ManifestChain
