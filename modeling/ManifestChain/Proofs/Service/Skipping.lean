import ManifestChain.Proofs.Service.Search

/-!
# Children that are skipped

Children that are no deployment, or one that cannot be interpreted, do not bear on what an injection
finds: it goes as on the list without them, but for warnings and for the place that a fault names.
The one exception is a deployment that is passed over where its warning would have to show a name
that cannot be shown.
-/

namespace ManifestChain

namespace Service

variable {workload : Workload} {ctx : Context} {mark : Mark} {children : List Value}
  {labels : Entries}

/-- The deployments among some children that can be interpreted. -/
def interpretable (children : List Value) : List Value :=
  children.filter fun child => child.containers?.isSome

theorem passedOver_interpretable (children : List Value) :
    passedOver (interpretable children) = interpretable (passedOver children) := by
  induction children with
  | nil => rfl
  | cons child rest ih =>
      rw [passedOver, interpretable, interpretable] at ih ⊢
      cases hport : child.declaredPort? with
      | some port =>
          obtain ⟨-, containers, -, hcontainers⟩ := Value.exists_of_declaredPort? hport
          simp [passedOver, hport, hcontainers]
      | none =>
          cases hcontainers : child.containers? with
          | some containers =>
              rw [passedOver] at ih
              simp [passedOver, hport, hcontainers, ih]
          | none =>
              rw [passedOver] at ih
              simp [passedOver, hport, hcontainers, ih]

/-- A result that adds no service: the children as they are, or nothing if there are none. -/
def FindsNothing (children : List Value) (result : Outcome) : Prop :=
  result = .unchanged ∨ children = [] ∧ result = .replaced .null

/-- What an injection into some children ends in, and what an injection into those of them ends in
that can be interpreted, if both find alike: nothing, or one service, or one invalid port, for which
each names the place of the deployment in its own list. -/
inductive FoundAlike (children : List Value) : Except Fault Outcome → Except Fault Outcome → Prop
  | nothing {result result' : Outcome} (h : FindsNothing children result)
      (h' : FindsNothing (interpretable children) result') :
      FoundAlike children (.ok result) (.ok result')
  | service (service : Value) :
      FoundAlike children (.ok (.replaced (.ofList (children ++ [service]))))
        (.ok (.replaced (.ofList (interpretable children ++ [service]))))
  | violation (called shown : Text) (owner : Value) {index index' : Nat} {deployment : Value}
      (h : children[index]? = some deployment)
      (h' : (interpretable children)[index']? = some deployment)
      (hindex : index' = (interpretable (children.take index)).length) :
      FoundAlike children (.error (.invalidPort called shown owner index))
        (.error (.invalidPort called shown owner index'))
  | unshown : FoundAlike children (.error .badValue) (.error .badValue)

theorem interpretable_append_cons {deployment : Value}
    (hsome : deployment.containers?.isSome = true) (before rest : List Value) :
    interpretable (before ++ deployment :: rest) =
      interpretable before ++ deployment :: interpretable rest := by
  simp [interpretable, hsome]

/-- The port of a deployment is exposed alike in both lists. -/
theorem foundAlike_of_exposedPort (workload : Workload) (labels : Entries) {deployment : Value}
    (port : Value) (before rest : List Value) {entries : Entries}
    (hdeployment : deployment.deployment? = some entries)
    (hsome : deployment.containers?.isSome = true) :
    FoundAlike (before ++ deployment :: rest)
      ((exposedPort workload deployment port before.length).map fun n =>
        injected workload labels (before ++ deployment :: rest) (some n))
      ((exposedPort workload deployment port (interpretable before).length).map fun n =>
        injected workload labels (interpretable (before ++ deployment :: rest)) (some n)) := by
  cases hnumber : portNumber? port with
  | some n =>
      rw [exposedPort_eq_ok_iff.mpr hnumber, exposedPort_eq_ok_iff.mpr hnumber]
      exact .service _
  | none =>
      rw [exposedPort_of_portNumber?_eq_none hnumber, exposedPort_of_portNumber?_eq_none hnumber]
      cases hname : deployment.fullName with
      | error e =>
          obtain ⟨rfl, -⟩ := (Value.fullName_eq_error_iff hdeployment).mp hname
          exact .unshown
      | ok called =>
          cases hshown : port.quoted with
          | error e =>
              obtain ⟨rfl, -⟩ := Value.quoted_eq_error_iff.mp hshown
              exact .unshown
          | ok shown =>
              have hplace : (before ++ deployment :: rest)[before.length]? = some deployment := by
                simp
              exact .violation called shown _ hplace
                (by rw [interpretable_append_cons hsome]; simp) (by simp)

/-- Deployments that can be interpreted are passed over without a warning. -/
theorem flatten_of_interpretable {before : List Value} {warnings : List (List Text)}
    (h : (interpretable before).mapM passing = .ok warnings) : warnings.flatten = [] := by
  refine List.flatten_eq_nil_iff.mpr
    (Json.forall_of_forall₂ (Fault.mapM_eq_ok_iff.mp h) fun child hchild ws hws => ?_)
  rw [passing_of_containers? (List.mem_filter.mp hchild).2] at hws
  exact (Except.ok.inj hws).symm

theorem mentionable_of_mem_interpretable {child : Value} (h : child ∈ interpretable children) :
    ¬child.Unmentionable := by
  rintro ⟨-, hnone, -⟩
  have hsome := (List.mem_filter.mp h).2
  rw [hnone] at hsome
  cases hsome

theorem passing_interpretable (children : List Value) : ∃ warnings,
    (passedOver (interpretable children)).mapM passing = .ok warnings ∧ warnings.flatten = [] := by
  rw [passedOver_interpretable]
  obtain ⟨warnings, hpass⟩ := exists_mapM_passing fun child hchild =>
    mentionable_of_mem_interpretable hchild
  exact ⟨warnings, hpass, flatten_of_interpretable hpass⟩

/-- The children that can be interpreted are searched without a warning. -/
theorem inject_interpretable_context (hlabels : ctx.labels workload = .ok labels) :
    ((inject workload (.list mark (interpretable children))).runIn ctx).2 = ctx := by
  by_cases hne : interpretable children = []
  · rw [hne]
    rfl
  · obtain ⟨ws, hws, hempty⟩ := passing_interpretable children
    have hending := inject_ending mark hne hlabels
    generalize ((inject workload (.list mark (interpretable children))).runIn ctx).1 = outcome
      at hending
    generalize ((inject workload (.list mark (interpretable children))).runIn ctx).2 = last
      at hending ⊢
    cases hending with
    | stuck _ hstuck =>
        obtain ⟨child, hchild, hname⟩ := hstuck
        exact (mentionable_of_mapM_passing hws child hchild hname).elim
    | nothing hpass =>
        cases hws.symm.trans hpass
        rw [hempty, Context.warned_nil]
    | selected hpass =>
        cases hws.symm.trans hpass
        rw [hempty, Context.warned_nil]

/-- An injection that gets past the children before the first declared port finds what it would find
among those of its children that can be interpreted. -/
theorem inject_foundAlike (hlabels : ctx.labels workload = .ok labels)
    (hmention : ∀ child ∈ passedOver children, ¬child.Unmentionable) :
    FoundAlike children ((inject workload (.list mark children)).runIn ctx).1
      ((inject workload (.list mark (interpretable children))).runIn ctx).1 := by
  by_cases hne : children = []
  · subst hne
    exact .nothing (.inr ⟨rfl, rfl⟩) (.inr ⟨rfl, rfl⟩)
  obtain ⟨ws, hws, -⟩ := passing_interpretable children
  have hending := inject_ending mark hne hlabels
  generalize ((inject workload (.list mark children)).runIn ctx).1 = outcome at hending ⊢
  generalize ((inject workload (.list mark children)).runIn ctx).2 = last at hending
  cases hending with
  | stuck _ hstuck =>
      obtain ⟨child, hchild, hname⟩ := hstuck
      exact (hmention child hchild hname).elim
  | nothing _ hall =>
      by_cases hnone : interpretable children = []
      · rw [hnone]
        exact .nothing (.inl rfl) (.inr ⟨hnone, rfl⟩)
      · have hall' : passedOver (interpretable children) = interpretable children := by
          rw [passedOver_interpretable, hall]
        rw [(Ending.nothing hws hall').inject_eq mark hnone hlabels]
        exact .nothing (.inl rfl) (.inl rfl)
  | @selected _ deployment port rest _ hsplit hport =>
      obtain ⟨entries, containers, hdeployment, hcontainers⟩ := Value.exists_of_declaredPort? hport
      have hsome : deployment.containers?.isSome = true := by rw [hcontainers]; rfl
      have hsplit' : interpretable children =
          passedOver (interpretable children) ++ deployment :: interpretable rest := by
        rw [passedOver_interpretable, ← interpretable_append_cons hsome, ← hsplit]
      have hnone : interpretable children ≠ [] := by
        rw [hsplit']
        simp
      rw [(Ending.selected hws hsplit' hport).inject_eq mark hnone hlabels,
        passedOver_interpretable]
      have halike := foundAlike_of_exposedPort workload labels port (passedOver children) rest
        hdeployment hsome
      rwa [← hsplit] at halike

/-- A value is recognized unless it is a deployment whose first container that cannot be interpreted
has a name that cannot be shown. An injection goes as among those of its children alone that can be
interpreted: it finds the same port or the same invalid port, whose place it counts in its own list,
or none, and adds warnings at most. Only where the warning about a child before the first declared
port would have to show a name that cannot be shown does it fail instead. -/
theorem inject_skips {key : Text} (hkey : ctx.labelKey = .text key) :
    (∀ (v : Value) e, v.classify = .error e ↔ e = .badValue ∧
      ∃ c, v.strayContainer? = some c ∧ c.isMapping = true ∧ c.nameIn.ShowsLongInt) ∧
    let run := (inject workload (.list mark children)).runIn ctx
    let only := (inject workload (.list mark (interpretable children))).runIn ctx
    only.2 = ctx ∧ (∃ warnings, run.2 = ctx.warned warnings) ∧
      ((∀ child ∈ passedOver children, ¬child.Unmentionable) → FoundAlike children run.1 only.1) ∧
      ((∃ child ∈ passedOver children, child.Unmentionable) → run.1 = .error .badValue) := by
  refine ⟨fun v e => Value.classify_eq_error_iff, ?_⟩
  intro run only
  have hlabels : ctx.labels workload = .ok [(.text key, workload.uid)] := by
    rw [Context.labels, hkey]
    rfl
  refine ⟨inject_interpretable_context hlabels, ?_, inject_foundAlike hlabels, ?_⟩
  · by_cases hne : children = []
    · subst hne
      exact ⟨[], (ctx.warned_nil).symm⟩
    · exact (inject_ending mark hne hlabels).exists_warned
  · intro hstuck
    have hne : children ≠ [] := by
      obtain ⟨child, hchild, -⟩ := hstuck
      exact List.ne_nil_of_mem (List.takeWhile_subset _ hchild)
    exact (Ending.stuck [] hstuck).inject_eq mark hne hlabels

/-- Behind a malformed deployment whose name has too many digits no port is found, though the
deployments that can be interpreted have one. -/
theorem inject_skips_long :
    let workload : Workload := ⟨"w", "", "u"⟩
    let deployment (name containers : Value) : Value := .ofEntries
      [("kind", "Deployment"), ("metadata", .ofEntries [("name", name)]),
        ("spec", .ofEntries [("template", .ofEntries
          [("spec", .ofEntries [("containers", containers)])])])]
    let port : Value := .ofEntries [("containerPort", .int 80)]
    let exposed := deployment "d" (.ofList [.ofEntries [("ports", .ofList [port])]])
    let stray := .ofEntries [("name", .int Numeral.bound), ("ports", "none")]
    let children := [deployment (.int Numeral.bound) "none", exposed]
    Context.initial.labelKey = .text defaultLabelKey ∧
      (deployment "d" (.ofList [stray])).classify = .error .badValue ∧
      interpretable children = [exposed] ∧
      ((inject workload (.list none [exposed])).runIn .initial).1 =
        .ok (.replaced (.ofList [exposed, manifest workload (.int 80)
          [(.text defaultLabelKey, "u")] [(.text defaultLabelKey, "u")]])) ∧
      ((inject workload (.list none children)).runIn .initial).1 = .error .badValue := by
  intro workload deployment port exposed stray children
  have hinterpretable : interpretable children = [exposed] := by rfl
  have hlong (n : Int) (hn : Numeral.bound ≤ n.natAbs) : (Value.int n).ShowsLongInt :=
    ⟨n, List.mem_singleton_self n, hn⟩
  have hbound : (Value.int Numeral.bound).ShowsLongInt :=
    hlong Numeral.bound (Int.natAbs_natCast _).ge
  obtain ⟨hclassify, -, -, -, hstuck⟩ := @inject_skips workload .initial none children
    defaultLabelKey rfl
  refine ⟨rfl, (hclassify _ _).mpr ⟨rfl, stray, rfl, rfl, hbound⟩, hinterpretable, by rfl,
    hstuck ⟨_, List.mem_cons_self, rfl, rfl, .inl hbound⟩⟩

end Service

end ManifestChain
