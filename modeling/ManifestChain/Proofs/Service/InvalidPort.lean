import ManifestChain.Proofs.Service.DeclaredPorts

/-!
# Invalid ports

An injection that selects a port fails exactly if the port denotes no number. The fault names the
workload and the place of the deployment among all children, unless the message would have to show
an integer of too many digits, in the port or as the name of the deployment: then it is another
fault, which names neither.
-/

namespace ManifestChain

/-- The first port of the containers comes from the first container that declares any. -/
theorem Value.firstPort?_eq_some_iff {containers : List Value} {port : Value} :
    Child.firstPort? containers = some port ↔ ∃ before container rest others,
      containers = before ++ container :: rest ∧ (∀ c ∈ before, Child.ports c = []) ∧
        Child.ports container = port :: others := by
  simp only [firstPort?_eq_findSome?, List.findSome?_eq_some_iff, List.head?_eq_some_iff,
    List.head?_eq_none_iff]
  constructor
  · rintro ⟨before, container, rest, hsplit, ⟨others, hports⟩, hbefore⟩
    exact ⟨before, container, rest, others, hsplit, hbefore, hports⟩
  · rintro ⟨before, container, rest, others, hsplit, hbefore, hports⟩
    exact ⟨before, container, rest, hsplit, ⟨others, hports⟩, hbefore⟩

namespace Service

/-- The port that children select: the first one of the first container with ports of the deployment
at a place, where no child before the deployment declares any. -/
structure Selects (children : List Value) (index : Nat) (deployment port : Value) : Prop where
  first : ∃ before rest, children = before ++ deployment :: rest ∧ before.length = index ∧
    ∀ child ∈ before, child.declaredPorts = []
  port : ∃ before container rest others,
    deployment.containers? = some (before ++ container :: rest) ∧
      (∀ c ∈ before, Child.ports c = []) ∧ Child.ports container = port :: others

variable {workload : Workload} {ctx : Context} {mark : Mark} {children : List Value}

theorem selects_of_split {deployment port : Value} {rest : List Value}
    (hsplit : children = passedOver children ++ deployment :: rest)
    (hport : deployment.declaredPort? = some port) :
    Selects children (passedOver children).length deployment port := by
  rw [Value.declaredPort?_eq, Option.bind_eq_some_iff] at hport
  obtain ⟨containers, hcontainers, hport⟩ := hport
  obtain ⟨before, container, others, ports, rfl, hbefore, hfirst⟩ :=
    Value.firstPort?_eq_some_iff.mp hport
  refine ⟨⟨passedOver children, rest, hsplit, rfl, fun child hchild => ?_⟩,
    before, container, others, ports, hcontainers, hbefore, hfirst⟩
  rw [← List.head?_eq_none_iff, ← Value.declaredPort?_eq_head?]
  exact declaredPort?_of_mem_passedOver hchild

/-- The port that children select is the first one that is declared among them. -/
theorem Selects.findSome?_eq {index : Nat} {deployment port : Value}
    (h : Selects children index deployment port) :
    children.findSome? Value.declaredPort? = some port := by
  obtain ⟨before, rest, rfl, -, hbefore⟩ := h.first
  obtain ⟨others, container, later, ports, hcontainers, hothers, hports⟩ := h.port
  have hport : deployment.declaredPort? = some port := by
    rw [Value.declaredPort?_eq, hcontainers, Option.bind_some, Value.firstPort?_eq_some_iff]
    exact ⟨others, container, later, ports, rfl, hothers, hports⟩
  refine List.findSome?_eq_some_iff.mpr
    ⟨before, deployment, rest, rfl, hport, fun child hchild => ?_⟩
  rw [Value.declaredPort?_eq_head?, hbefore child hchild]
  rfl

/-- A number that a port denotes has few digits. -/
theorem Denotes.natAbs_lt {port : Value} {n : Int} (h : Denotes port n) :
    n.natAbs < Numeral.bound := by
  obtain ⟨-, -, -, hmin, hmax⟩ := h
  have hbound : 65535 < Numeral.bound := by
    unfold Numeral.bound
    have hlimit : 5 ≤ Numeral.digitLimit := by decide
    generalize Numeral.digitLimit = limit at hlimit ⊢
    exact Nat.lt_of_lt_of_le (m := 10 ^ 5) (by decide) (Nat.pow_le_pow_right (by decide) hlimit)
  omega

theorem exposedPort_fails_iff {deployment port : Value} {index : Nat} :
    (∃ e, exposedPort workload deployment port index = .error e) ↔ portNumber? port = none := by
  cases hexposed : exposedPort workload deployment port index with
  | ok n => simp [exposedPort_eq_ok_iff.mp hexposed]
  | error e =>
      cases hnumber : portNumber? port with
      | none => simp
      | some n =>
          rw [exposedPort_eq_ok_iff.mpr hnumber] at hexposed
          cases hexposed

/-- Where all deployments among the children can be interpreted and one of them declares a port, the
injection fails exactly if the port that they select denotes no number. The fault is that of an
invalid port, with the workload's name and the place of the deployment, if the deployment's name and
the port can be shown, and the fault of a value that cannot be shown otherwise. -/
theorem inject_invalidPort {key : Text} (hkey : ctx.labelKey = .text key)
    (hdeployments : ∀ child ∈ children, child.deployment?.isSome = true →
      child.containers?.isSome = true)
    (hports : ∃ child ∈ children, child.declaredPorts ≠ []) :
    let outcome := ((inject workload (.list mark children)).runIn ctx).1
    ∃ index deployment port, Selects children index deployment port ∧
      ((∃ e, outcome = .error e) ↔ ¬∃ n, Denotes port n) ∧
      ∀ e, outcome = .error e ↔ (¬∃ n, Denotes port n) ∧
        (e = .badValue ∧ (deployment.ownName.ShowsLongInt ∨ port.ShowsLongInt) ∨
          ∃ called shown, deployment.fullName = .ok called ∧ port.quoted = .ok shown ∧
            e = .invalidPort called shown workload.name index) := by
  intro outcome
  obtain ⟨child, hchild, hdeclares⟩ := hports
  have hlabels : ctx.labels workload = .ok [(.text key, workload.uid)] := by
    rw [Context.labels, hkey]
    rfl
  have hending := inject_ending mark (List.ne_nil_of_mem hchild) hlabels
  change Ending workload _ children ctx outcome _ at hending
  generalize ((inject workload (.list mark children)).runIn ctx).2 = last at hending
  generalize outcome = outcome at hending ⊢
  cases hending with
  | stuck _ hstuck =>
      -- Only a deployment that cannot be interpreted would stop the search before it finds a port.
      obtain ⟨d, hd, hdeployment, hnone, -⟩ := hstuck
      have hsome := hdeployments d ((List.takeWhile_subset _) hd) hdeployment
      rw [hnone] at hsome
      cases hsome
  | nothing hpass hall =>
      have hempty : ∀ d ∈ children, d.declaredPorts = [] :=
        List.flatMap_eq_nil_iff.mp (declaredPorts_of_passedOver_eq hall)
      exact (hdeclares (hempty child hchild)).elim
  | @selected _ deployment port rest hpass hsplit hport =>
      obtain ⟨entries, containers, hdeployment, -⟩ := Value.exists_of_declaredPort? hport
      have hdenotes : portNumber? port = none ↔ ¬∃ n, Denotes port n := by
        simp only [← portNumber?_eq_some_iff, Option.eq_none_iff_forall_ne_some, not_exists, ne_eq]
      refine ⟨_, deployment, port, selects_of_split hsplit hport, ?_, fun e => ?_⟩
      · rw [← hdenotes, ← exposedPort_fails_iff]
        exact exists_congr fun e => Fault.map_eq_error_iff
      · rw [Fault.map_eq_error_iff, exposedPort_eq_error_iff hdeployment, hdenotes]

/-- A port of too many digits is reported neither with the workload nor with the place of its
deployment. -/
theorem inject_invalidPort_long :
    let workload : Workload := ⟨"w", "", "u"⟩
    let port : Value := .ofEntries [("containerPort", .int Numeral.bound)]
    let children : List Value :=
      [.ofEntries [("kind", "Service")],
        .ofEntries [("kind", "Deployment"), ("spec", .ofEntries [("template", .ofEntries
          [("spec", .ofEntries [("containers", .ofList
            [.ofEntries [("ports", .ofList [port])]])])])])]]
    Context.initial.labelKey = .text defaultLabelKey ∧
      (∀ child ∈ children, child.deployment?.isSome = true → child.containers?.isSome = true) ∧
      (∃ child ∈ children, child.declaredPorts ≠ []) ∧
      ((inject workload (.list none children)).runIn .initial).1 = .error .badValue := by
  intro workload port children
  have hdeployments : ∀ child ∈ children,
      child.deployment?.isSome = true → child.containers?.isSome = true :=
    List.forall_mem_cons.mpr ⟨nofun, List.forall_mem_cons.mpr ⟨fun _ => rfl, nofun⟩⟩
  have hports : ∃ child ∈ children, child.declaredPorts ≠ [] :=
    ⟨_, List.mem_cons_of_mem _ List.mem_cons_self, List.cons_ne_nil port []⟩
  refine ⟨rfl, hdeployments, hports, ?_⟩
  obtain ⟨index, deployment, selected, hselects, -, hfault⟩ := @inject_invalidPort workload
    .initial none children defaultLabelKey rfl hdeployments hports
  have hfirst : children.findSome? Value.declaredPort? = some port := by rfl
  obtain rfl : port = selected := Option.some.inj (hfirst.symm.trans hselects.findSome?_eq)
  have hlong (n : Int) (hn : Numeral.bound ≤ n.natAbs) :
      (¬∃ m, Denotes (.ofEntries [("containerPort", .int n)]) m) ∧
        (Value.ofEntries [("containerPort", .int n)]).ShowsLongInt := by
    refine ⟨?_, n, by simp [Value.ofEntries, Value.shownInts, Value.shownIntsOfEntries], hn⟩
    rintro ⟨m, hm⟩
    have hlt : m.natAbs < Numeral.bound := hm.natAbs_lt
    obtain ⟨entries, hentries, hvalue, -⟩ := hm
    cases hentries
    cases hvalue
    exact hn.not_gt hlt
  obtain ⟨hinvalid, hshows⟩ := hlong Numeral.bound (Int.natAbs_natCast _).ge
  exact (hfault .badValue).mpr ⟨hinvalid, .inl ⟨rfl, .inr hshows⟩⟩

end Service

end ManifestChain
