import ManifestChain.Proofs.Service.Search
import ManifestChain.Proofs.Value.EntryOrder

/-!
# The ports that children declare

The ports of all containers of all deployments that can be interpreted form one list. An injection
looks at its head only: without ports the children stay as they are, and otherwise a service is
added for the head, or the injection fails if the head is no valid port.
-/

namespace ManifestChain

namespace Value

/-- The ports that a child declares in all of its containers, if it is a deployment that can be
interpreted. -/
def declaredPorts (v : Value) : List Value := (v.containers?.getD []).flatMap Child.ports

theorem declaredPort?_eq_head? (v : Value) : v.declaredPort? = v.declaredPorts.head? := by
  rw [declaredPort?_eq, declaredPorts]
  cases v.containers? with
  | none => rfl
  | some containers => exact (firstPort?_eq_findSome? containers).trans List.head?_flatMap.symm

/-! ## Looking a port up without checks -/

/-- Whether the ports of a container count as true. -/
def portsCount (c : Value) : Bool :=
  match c.entries? with
  | some entries => (field entries "ports").isTruthy
  | none => false

/-- A container that can be interpreted can be asked for its ports, and they count as true exactly
if there are any. Then the container has them as a list with a first item. -/
theorem ports_of_isContainer {c : Value} (h : c.isContainer = true) :
    c.isMapping = true ∧
      (Child.ports c = [] ∧ c.portsCount = false ∨
        ∃ mark port rest, Child.ports c = port :: rest ∧ c.portsCount = true ∧
          c.partAt "ports" = .ok (.list mark (port :: rest))) := by
  rw [isMapping, Child.ports, portsCount]
  unfold isContainer at h
  cases hentries : c.entries? with
  | none =>
      rw [hentries] at h
      cases h
  | some entries =>
      rw [hentries] at h
      refine ⟨rfl, ?_⟩
      simp only at h ⊢
      cases hports : field entries "ports" with
      | null => exact .inl ⟨rfl, rfl⟩
      | list mark items =>
          cases items with
          | nil => exact .inl ⟨rfl, rfl⟩
          | cons port rest =>
              have hget : entries.get? "ports" = some (.list mark (port :: rest)) := by
                rw [field] at hports
                cases hfound : entries.get? "ports" with
                | none =>
                    rw [hfound] at hports
                    cases hports
                | some found =>
                    rw [hfound] at hports
                    exact congrArg some hports
              exact .inr ⟨mark, port, rest, rfl, rfl,
                partAt_text_eq_ok_iff.mpr ⟨entries, hentries, hget⟩⟩
      | _ =>
          rw [hports] at h
          cases h

/-- A port looked up without checks is found: if the ports of some container count as true, the
first such container has a list of ports with a first item, which is the first port that is
declared. -/
def LooksUp (containers : List Value) : Prop :=
  (∀ c ∈ containers, c.isMapping = true) ∧
    (Child.deployment containers).exposesPorts = containers.any portsCount ∧
    (containers.any portsCount = true → ∃ c ports port, containers.find? portsCount = some c ∧
      c.partAt "ports" = .ok ports ∧ ports.partAt (.int 0) = .ok port ∧
      Child.firstPort? containers = some port)

theorem looksUp_of_isContainer {containers : List Value}
    (h : ∀ c ∈ containers, c.isContainer = true) : LooksUp containers := by
  induction containers with
  | nil => exact ⟨by simp, rfl, by simp⟩
  | cons c rest ih =>
      obtain ⟨hmapping, hexposes, hfind⟩ := ih fun d hd => h d (List.mem_cons_of_mem _ hd)
      obtain ⟨hc, hports⟩ := ports_of_isContainer (h c List.mem_cons_self)
      refine ⟨List.forall_mem_cons.mpr ⟨hc, hmapping⟩, ?_⟩
      rcases hports with ⟨hempty, hcount⟩ | ⟨mark, port, others, hports, hcount, hpart⟩
      · have hfirst : Child.firstPort? (c :: rest) = Child.firstPort? rest := by
          rw [Child.firstPort?, hempty]
        rw [Child.exposesPorts, hfirst, List.any_cons, hcount, Bool.false_or,
          List.find?_cons_of_neg (by rw [hcount]; decide)]
        exact ⟨hexposes, hfind⟩
      · have hfirst : Child.firstPort? (c :: rest) = some port := by
          rw [Child.firstPort?, hports]
        rw [Child.exposesPorts, hfirst, List.any_cons, hcount, Bool.true_or,
          List.find?_cons_of_pos hcount]
        have hitem : (list mark (port :: others)).partAt (int 0) = .ok port :=
          itemAt_eq_ok_iff.mpr ⟨0, by simp [place, asInt?], rfl⟩
        exact ⟨rfl, fun _ => ⟨c, _, port, rfl, hpart, hitem, rfl⟩⟩

theorem looksUp_of_containers? {v : Value} {containers : List Value}
    (h : v.containers? = some containers) : LooksUp containers :=
  looksUp_of_isContainer (containers?_eq_some_iff.mp h).2

end Value

namespace Service

variable {workload : Workload} {ctx ctx' : Context} {mark : Mark} {children : List Value}

theorem head?_declaredPorts (children : List Value) :
    (children.flatMap Value.declaredPorts).head? = children.findSome? Value.declaredPort? := by
  rw [List.head?_flatMap]
  congr 1
  funext child
  rw [Value.declaredPort?_eq_head?]

/-- A declared port that denotes a number: a mapping whose container port is an integer in range. -/
def Denotes (port : Value) (n : Int) : Prop :=
  ∃ entries, port.entries? = some entries ∧ Value.field entries "containerPort" = .int n ∧
    1 ≤ n ∧ n ≤ 65535

theorem portNumber?_eq_some_iff {port : Value} {n : Int} :
    portNumber? port = some n ↔ Denotes port n := by
  rw [portNumber?, Denotes]
  cases port.entries? with
  | none => simp
  | some entries =>
      simp only [Option.some.injEq, exists_eq_left']
      cases Value.field entries "containerPort" with
      | int m =>
          change (if 1 ≤ m ∧ m ≤ 65535 then some m else none) = some n ↔ _
          rw [Option.ite_none_right_eq_some, Option.some.injEq, Value.int.injEq]
          constructor
          · rintro ⟨hrange, rfl⟩
            exact ⟨rfl, hrange⟩
          · rintro ⟨rfl, hrange⟩
            exact ⟨hrange, rfl⟩
      | _ => simp

theorem declaredPorts_of_passedOver_eq (h : passedOver children = children) :
    children.flatMap Value.declaredPorts = [] := by
  rw [← List.head?_eq_none_iff, head?_declaredPorts, List.findSome?_eq_none_iff]
  exact fun child hchild => declaredPort?_of_mem_passedOver (by rwa [h])

theorem head?_declaredPorts_of_selected {deployment port : Value} {rest : List Value}
    (hsplit : children = passedOver children ++ deployment :: rest)
    (hport : deployment.declaredPort? = some port) :
    (children.flatMap Value.declaredPorts).head? = some port := by
  rw [head?_declaredPorts, hsplit, List.findSome?_append,
    List.findSome?_eq_none_iff.mpr fun child => declaredPort?_of_mem_passedOver,
    List.findSome?_cons, hport]
  rfl

/-- The ways in which an injection can end, by the head of all declared ports. Unless it fails at a
child that it would have to pass over, it leaves the children without a port, exposes the head, or
refuses it. -/
inductive HeadEnding (workload : Workload) (labels : Entries) (children : List Value) :
    Except Fault Outcome → Prop
  | stuck (hstuck : ∃ child ∈ passedOver children, child.Unmentionable) :
      HeadEnding workload labels children (.error .badValue)
  | portless (hmention : ∀ child ∈ passedOver children, ¬child.Unmentionable)
      (hports : children.flatMap Value.declaredPorts = []) :
      HeadEnding workload labels children (.ok .unchanged)
  | exposed {head : Value} {rest : List Value} {n : Int}
      (hmention : ∀ child ∈ passedOver children, ¬child.Unmentionable)
      (hports : children.flatMap Value.declaredPorts = head :: rest) (hn : Denotes head n) :
      HeadEnding workload labels children (.ok (injected workload labels children (some n)))
  | refused {head : Value} {rest : List Value} {e : Fault}
      (hports : children.flatMap Value.declaredPorts = head :: rest)
      (hinvalid : ¬∃ n, Denotes head n)
      (he : e = .badValue ∨ ∃ name shown index, e = .invalidPort name shown workload.name index) :
      HeadEnding workload labels children (.error e)

theorem Ending.head {labels : Entries} {outcome : Except Fault Outcome}
    (h : Ending workload labels children ctx outcome ctx') :
    HeadEnding workload labels children outcome := by
  cases h with
  | stuck _ hstuck => exact .stuck hstuck
  | nothing hpass hall =>
      exact .portless (mentionable_of_mapM_passing hpass) (declaredPorts_of_passedOver_eq hall)
  | @selected _ deployment port rest hpass hsplit hport =>
      obtain ⟨others, hports⟩ :=
        List.head?_eq_some_iff.mp (head?_declaredPorts_of_selected hsplit hport)
      obtain ⟨entries, containers, hdeployment, -⟩ := Value.exists_of_declaredPort? hport
      cases hexposed : exposedPort workload deployment port (passedOver children).length with
      | ok n =>
          exact .exposed (mentionable_of_mapM_passing hpass) hports
            (portNumber?_eq_some_iff.mp (exposedPort_eq_ok_iff.mp hexposed))
      | error e =>
          obtain ⟨hnumber, hfault⟩ := (exposedPort_eq_error_iff hdeployment).mp hexposed
          have hinvalid : ¬∃ n, Denotes port n := by
            rintro ⟨n, hn⟩
            rw [portNumber?_eq_some_iff.mpr hn] at hnumber
            cases hnumber
          refine .refused hports hinvalid ?_
          rcases hfault with ⟨he, -⟩ | ⟨name, shown, -, -, he⟩
          · exact .inl he
          · exact .inr ⟨name, shown, _, he⟩

/-- An injection of a service looks at the head of all declared ports only. It returns exactly if
the deployments that it passes over can be mentioned and the head, if there is one, denotes a
number: then it adds the service for this number, and leaves the very children without a declared
port. It fails with the fault of an invalid port, or because something cannot be shown, and no
look-up that is made without a check can miss. -/
theorem inject_declaredPorts {key : Text} (hkey : ctx.labelKey = .text key) (hne : children ≠ []) :
    let outcome := ((inject workload (.list mark children)).runIn ctx).1
    let ports := children.flatMap Value.declaredPorts
    (∀ e, outcome = .error e →
      e = .badValue ∨ ∃ name shown index, e = .invalidPort name shown workload.name index) ∧
    (∀ result, outcome = .ok result →
      (ports = [] → result = .unchanged) ∧
      ∀ head rest, ports = head :: rest → ∃ n, Denotes head n ∧
        result = .replaced (.ofList (children ++ [manifest workload (.int n)
          [(.text key, workload.uid)] [(.text key, workload.uid)]]))) ∧
    (∀ head rest, ports = head :: rest → (¬∃ n, Denotes head n) → ∃ e, outcome = .error e) ∧
    ((∃ result, outcome = .ok result) ↔
      (∀ child ∈ passedOver children, ¬child.Unmentionable) ∧
        ∀ head rest, ports = head :: rest → ∃ n, Denotes head n) ∧
    ∀ child ∈ children, ∀ containers, child.containers? = some containers →
      Value.LooksUp containers := by
  intro outcome ports
  have hlabels : ctx.labels workload = .ok [(.text key, workload.uid)] := by
    rw [Context.labels, hkey]
    rfl
  have hlooksUp : ∀ child ∈ children, ∀ containers, child.containers? = some containers →
      Value.LooksUp containers := fun _ _ _ h => Value.looksUp_of_containers? h
  have hending : HeadEnding workload _ children outcome := (inject_ending mark hne hlabels).head
  generalize outcome = outcome at hending ⊢
  cases hending with
  | stuck hstuck =>
      obtain ⟨child, hchild, hname⟩ := hstuck
      refine ⟨by simp, by rintro _ ⟨⟩, by simp, ?_, hlooksUp⟩
      exact iff_of_false (by simp) fun h => h.1 child hchild hname
  | portless hmention hports =>
      refine ⟨by rintro _ ⟨⟩, ?_, by simp [ports, hports], ?_, hlooksUp⟩
      · rintro result ⟨⟩
        exact ⟨fun _ => rfl, by simp [ports, hports]⟩
      · exact iff_of_true ⟨_, rfl⟩ ⟨hmention, by simp [ports, hports]⟩
  | @exposed head rest n hmention hports hn =>
      -- A list has one head.
      have hvalid (head' : Value) (rest' : List Value) (h : ports = head' :: rest') :
          Denotes head' n := by
        cases hports.symm.trans h
        exact hn
      refine ⟨by rintro _ ⟨⟩, ?_, ?_, ?_, hlooksUp⟩
      · rintro result ⟨⟩
        exact ⟨fun h => (List.cons_ne_nil _ _ (hports.symm.trans h)).elim,
          fun head' rest' h => ⟨n, hvalid head' rest' h, rfl⟩⟩
      · exact fun head' rest' h hinvalid => (hinvalid ⟨n, hvalid head' rest' h⟩).elim
      · exact iff_of_true ⟨_, rfl⟩ ⟨hmention, fun head' rest' h => ⟨n, hvalid head' rest' h⟩⟩
  | @refused head rest e hports hinvalid he =>
      refine ⟨?_, by rintro _ ⟨⟩, fun _ _ _ _ => ⟨e, rfl⟩, ?_, hlooksUp⟩
      · rintro _ ⟨⟩
        exact he
      · exact iff_of_false (by simp) fun h => hinvalid (h.2 head rest hports)

/-- Behind a deployment that cannot be interpreted and a container without ports, the first of two
ports is exposed. -/
theorem inject_declaredPorts_two :
    let workload : Workload := ⟨"w", "", "u"⟩
    let deployment (containers : Value) : Value := .ofEntries
      [("kind", "Deployment"), ("spec", .ofEntries [("template", .ofEntries
        [("spec", .ofEntries [("containers", containers)])])])]
    let port (n : Int) : Value := .ofEntries [("containerPort", .int n)]
    let children : List Value :=
      [deployment "none", deployment (.ofList
        [.ofEntries [], .ofEntries [("ports", .ofList [port 80, port 90])]])]
    Context.initial.labelKey = .text defaultLabelKey ∧ children ≠ [] ∧
      children.flatMap Value.declaredPorts = [port 80, port 90] ∧
      ((inject workload (.list none children)).runIn .initial).1 =
        .ok (.replaced (.ofList (children ++ [manifest workload (.int 80)
          [(.text defaultLabelKey, "u")] [(.text defaultLabelKey, "u")]]))) := by
  intro workload deployment port children
  have hne : children ≠ [] := List.cons_ne_nil _ _
  have hports : children.flatMap Value.declaredPorts = [port 80, port 90] := by rfl
  refine ⟨rfl, hne, hports, ?_⟩
  obtain ⟨-, hreturns, -⟩ := @inject_declaredPorts workload .initial none children
    defaultLabelKey rfl hne
  have hok : ((inject workload (.list none children)).runIn .initial).1.toOption.isSome = true := by
    decide +kernel
  generalize ((inject workload (.list none children)).runIn .initial).1 = outcome at hreturns hok ⊢
  cases outcome with
  | error e => cases hok
  | ok result =>
      obtain ⟨n, hn, rfl⟩ := (hreturns result rfl).2 _ _ hports
      have hnumber : portNumber? (port 80) = some 80 := rfl
      rw [portNumber?_eq_some_iff.mpr hn] at hnumber
      cases hnumber
      rfl

end Service

end ManifestChain
