import Mathlib.Data.List.TakeWhile
import ManifestChain.Proofs.Child
import ManifestChain.Proofs.Service

/-!
# The search for a port

A search passes over the children that declare no port, with a warning for every deployment that
cannot be interpreted, and ends at the first child that declares one. It fails before that only at a
deployment whose warning would have to show a name that cannot be shown.
-/

namespace ManifestChain

/-- The context with some warnings added. -/
def Context.warned (ctx : Context) (warnings : List Text) : Context :=
  { ctx with warnings := ctx.warnings ++ warnings }

@[simp] theorem Context.warned_nil (ctx : Context) : ctx.warned [] = ctx := by
  rw [warned, List.append_nil]

@[simp] theorem Context.warned_warned (ctx : Context) (first rest : List Text) :
    (ctx.warned first).warned rest = ctx.warned (first ++ rest) := by
  rw [warned, warned, warned, List.append_assoc]

namespace Value

variable {v : Value} {containers : List Value}

theorem declaredPort?_eq (v : Value) :
    v.declaredPort? = v.containers?.bind Child.firstPort? := by
  rw [declaredPort?]
  cases hrecognized : v.classify with
  | error e =>
      cases hcontainers : v.containers? with
      | none => rfl
      | some containers =>
          rw [classify_of_containers? hcontainers] at hrecognized
          cases hrecognized
  | ok child =>
      cases hcontainers : v.containers? with
      | some containers =>
          rw [classify_of_containers? hcontainers] at hrecognized
          cases hrecognized
          rfl
      | none =>
          cases child with
          | deployment containers =>
              rw [classify_eq_deployment_iff.mp hrecognized] at hcontainers
              cases hcontainers
          | service => rfl
          | other why => rfl

theorem exists_of_declaredPort? {port : Value} (h : v.declaredPort? = some port) :
    ∃ entries containers, v.deployment? = some entries ∧ v.containers? = some containers := by
  rw [declaredPort?_eq, Option.bind_eq_some_iff] at h
  obtain ⟨containers, hcontainers, -⟩ := h
  obtain ⟨hpath, -⟩ := containers?_eq_some_iff.mp hcontainers
  obtain ⟨entries, hentries, -⟩ := Option.bind_eq_some_iff.mp hpath
  exact ⟨entries, containers, hentries, hcontainers⟩

/-- A deployment is called by its kind and its own name. -/
theorem fullName_of_deployment? {entries : Entries} (h : v.deployment? = some entries) :
    v.fullName = v.ownName.shown.map fun name => deploymentKind ++ "/" ++ name := by
  obtain ⟨hentries, hkind⟩ := deployment?_eq_some_iff.mp h
  have hget : (entries.get? "kind").getD "?" = text deploymentKind := by
    rw [field] at hkind
    cases hfound : entries.get? "kind" with
    | none =>
        rw [hfound] at hkind
        cases hkind
    | some kind =>
        rw [hfound] at hkind
        exact hkind
  rw [fullName, ownName, hentries]
  simp only [hget, nameIn]
  cases (field entries "metadata").entries? with
  | none => rfl
  | some metadata =>
      simp only
      cases ((metadata.get? "name").getD "?").shown <;> rfl

theorem fullName_eq_error_iff {entries : Entries} (h : v.deployment? = some entries) {e : Fault} :
    v.fullName = .error e ↔ e = .badValue ∧ v.ownName.ShowsLongInt := by
  rw [fullName_of_deployment? h, Fault.map_eq_error_iff, shown_eq_error_iff]

/-- A deployment that cannot be interpreted, and whose warning would have to show a name that cannot
be shown: its own, or that of the container that speaks against it. -/
def Unmentionable (v : Value) : Prop :=
  v.deployment?.isSome = true ∧ v.containers? = none ∧
    (v.ownName.ShowsLongInt ∨
      ∃ c, v.strayContainer? = some c ∧ c.isMapping = true ∧ c.nameIn.ShowsLongInt)

end Value

namespace Service

variable {workload : Workload} {ctx ctx' : Context} {index : Nat}

/-! ## Passing over a child -/

/-- The warnings about a child that declares no port, one or none. -/
def passing (child : Value) : Except Fault (List Text) := do
  match ← child.classify with
  | .other why => if why.isMalformed then return [← skipped child why] else return []
  | _ => return []

theorem passing_of_containers? {child : Value} (h : child.containers?.isSome = true) :
    passing child = .ok [] := by
  obtain ⟨containers, hcontainers⟩ := Option.isSome_iff_exists.mp h
  rw [passing, Value.classify_of_containers? hcontainers]
  rfl

theorem passing_of_not_deployment {child : Value} (h : child.deployment? = none) :
    passing child = .ok [] := by
  rw [passing]
  rcases Value.classify_of_deployment?_eq_none h with hservice | ⟨why, hother, hwhy⟩
  · rw [hservice]
    rfl
  · rw [hother]
    change (if why.isMalformed = true then _ else _) = _
    rw [hwhy]
    rfl

theorem skipped_eq_error_iff {child : Value} {entries : Entries}
    (h : child.deployment? = some entries) (why : Otherness) {e : Fault} :
    skipped child why = .error e ↔ e = .badValue ∧ child.ownName.ShowsLongInt := by
  rw [skipped, ← Fault.of?_eq_some_iff, Fault.of?_bind_pure, Fault.of?_eq_some_iff,
    Value.fullName_eq_error_iff h]

/-- A deployment that cannot be interpreted is passed over with a warning. -/
theorem passing_of_malformed {child : Value} {entries : Entries}
    (h : child.deployment? = some entries) (hnone : child.containers? = none) :
    passing child = child.malformation >>= fun why => (skipped child why).map fun w => [w] := by
  rw [passing, Value.classify_of_malformed h hnone]
  cases hwhy : child.malformation with
  | error e => rfl
  | ok why =>
      change (if why.isMalformed = true then _ else _) = (skipped child why).map fun w => [w]
      rw [if_pos (Value.isMalformed_of_malformation hwhy)]
      cases skipped child why <;> rfl

/-- A child is passed over unless its warning would have to show a name that cannot be shown. -/
theorem passing_eq_error_iff {child : Value} {e : Fault} :
    passing child = .error e ↔ e = .badValue ∧ child.Unmentionable := by
  rw [Value.Unmentionable]
  cases hdeployment : child.deployment? with
  | none => simp [passing_of_not_deployment hdeployment]
  | some entries =>
      cases hcontainers : child.containers? with
      | some containers => simp [passing_of_containers? (by rw [hcontainers]; rfl)]
      | none =>
          rw [passing_of_malformed hdeployment hcontainers, Fault.bind_eq_error_iff,
            Value.malformation_eq_error_iff]
          simp only [Fault.map_eq_error_iff, skipped_eq_error_iff hdeployment, Option.isSome_some,
            true_and]
          constructor
          · rintro (⟨he, hstray⟩ | ⟨why, -, he, hname⟩)
            · exact ⟨he, .inr hstray⟩
            · exact ⟨he, .inl hname⟩
          · rintro ⟨rfl, hname | hstray⟩
            · cases hwhy : child.malformation with
              | error e => exact .inl ⟨rfl, (Value.malformation_eq_error_iff.mp hwhy).2⟩
              | ok why => exact .inr ⟨why, rfl, rfl, hname⟩
            · exact .inl ⟨rfl, hstray⟩

/-! ## The search step by step -/

/-- The search ends at a child that declares a port. -/
theorem runIn_findPort_of_declared {child port : Value} (rest : List Value)
    (h : child.declaredPort? = some port) :
    (findPort workload index (child :: rest)).runIn ctx =
      ((exposedPort workload child port index).map some, ctx) := by
  rw [Value.declaredPort?_eq, Option.bind_eq_some_iff] at h
  obtain ⟨containers, hcontainers, hport⟩ := h
  rw [findPort, Run.runIn_bind, Run.runIn_ofExcept, Value.classify_of_containers? hcontainers]
  simp only [hport]
  rw [Run.runIn_bind, Run.runIn_ofExcept]
  cases exposedPort workload child port index <;> rfl

/-- The search goes on after a child that declares no port. -/
theorem runIn_findPort_of_passed {child : Value} (rest : List Value) {warnings : List Text}
    (hnone : child.declaredPort? = none) (hpass : passing child = .ok warnings) :
    (findPort workload index (child :: rest)).runIn ctx =
      (findPort workload (index + 1) rest).runIn (ctx.warned warnings) := by
  obtain ⟨recognized, hrecognized, hwarnings⟩ := Fault.bind_eq_ok_iff.mp hpass
  rw [findPort, Run.runIn_bind, Run.runIn_ofExcept, hrecognized]
  cases recognized with
  | deployment containers =>
      cases hwarnings
      rw [Value.declaredPort?, hrecognized] at hnone
      have hport : Child.firstPort? containers = none := hnone
      simp only [hport, Context.warned_nil]
  | service =>
      cases hwarnings
      rw [Context.warned_nil]
  | other why =>
      simp only at hwarnings ⊢
      split at hwarnings
      next hmalformed =>
        obtain ⟨warning, hwarning, hreturn⟩ := Fault.bind_eq_ok_iff.mp hwarnings
        cases hreturn
        rw [if_pos hmalformed, hwarning, Run.runIn_bind]
        rfl
      next hother =>
        cases hwarnings
        rw [if_neg hother, Context.warned_nil]

/-- The search fails at a child that cannot be passed over. -/
theorem runIn_findPort_of_stuck {child : Value} (rest : List Value) {e : Fault}
    (hstuck : passing child = .error e) :
    (findPort workload index (child :: rest)).runIn ctx = (.error e, ctx) := by
  rw [findPort, Run.runIn_bind, Run.runIn_ofExcept]
  rcases Fault.bind_eq_error_iff.mp hstuck with hrecognized | ⟨recognized, hrecognized, hstuck⟩
  · rw [hrecognized]
  · rw [hrecognized]
    cases recognized with
    | deployment containers => cases hstuck
    | service => cases hstuck
    | other why =>
        simp only at hstuck ⊢
        split at hstuck
        next hmalformed =>
          rw [if_pos hmalformed]
          rcases Fault.bind_eq_error_iff.mp hstuck with hskipped | ⟨warning, -, hreturn⟩
          · rw [hskipped]
            rfl
          · cases hreturn
        next => cases hstuck

/-! ## The search along a list -/

variable (workload) (ctx) (index) {before : List Value} (rest : List Value)

/-- Children that declare no port and can be passed over leave their warnings and nothing else. -/
theorem runIn_findPort_append {warnings : List (List Text)}
    (hnone : ∀ child ∈ before, child.declaredPort? = none)
    (hpass : before.mapM passing = .ok warnings) :
    (findPort workload index (before ++ rest)).runIn ctx =
      (findPort workload (index + before.length) rest).runIn (ctx.warned warnings.flatten) := by
  induction before generalizing index ctx warnings with
  | nil =>
      cases hpass
      simp
  | cons child before ih =>
      rw [List.mapM_cons] at hpass
      obtain ⟨first, hfirst, hpass⟩ := Fault.bind_eq_ok_iff.mp hpass
      obtain ⟨others, hothers, hreturn⟩ := Fault.bind_eq_ok_iff.mp hpass
      cases hreturn
      rw [List.cons_append, runIn_findPort_of_passed _ (hnone child List.mem_cons_self) hfirst,
        ih _ _ (fun c hc => hnone c (List.mem_cons_of_mem _ hc)) hothers, Context.warned_warned,
        List.flatten_cons, List.length_cons]
      congr 2
      omega

/-- The search fails at the first child that can neither end it nor be passed over. -/
theorem runIn_findPort_append_stuck {e : Fault}
    (hnone : ∀ child ∈ before, child.declaredPort? = none)
    (hstuck : before.mapM passing = .error e) : ∃ warnings,
      (findPort workload index (before ++ rest)).runIn ctx = (.error e, ctx.warned warnings) := by
  induction before generalizing index ctx with
  | nil => cases hstuck
  | cons child before ih =>
      rw [List.mapM_cons] at hstuck
      rcases Fault.bind_eq_error_iff.mp hstuck with hfirst | ⟨first, hfirst, hstuck⟩
      · exact ⟨[], by rw [Context.warned_nil]; exact runIn_findPort_of_stuck _ hfirst⟩
      · rcases Fault.bind_eq_error_iff.mp hstuck with hothers | ⟨others, -, hreturn⟩
        · obtain ⟨warnings, hrun⟩ :=
            ih (ctx.warned first) (index + 1) (fun c hc => hnone c (List.mem_cons_of_mem _ hc))
              hothers
          refine ⟨first ++ warnings, ?_⟩
          rw [List.cons_append, runIn_findPort_of_passed _ (hnone child List.mem_cons_self) hfirst,
            hrun, Context.warned_warned]
        · cases hreturn

variable {workload index ctx rest}

/-- Children can all be passed over unless one of them is unmentionable. -/
theorem mapM_passing_eq_error_iff {e : Fault} :
    before.mapM passing = .error e ↔ e = .badValue ∧ ∃ child ∈ before, child.Unmentionable := by
  have hfault (e : Fault) (h : before.mapM passing = .error e) :
      e = .badValue ∧ ∃ child ∈ before, child.Unmentionable := by
    rw [← Fault.of?_eq_some_iff, Fault.of?_mapM] at h
    obtain ⟨child, hchild, hpassing⟩ := List.exists_of_findSome?_eq_some h
    obtain ⟨he, hname⟩ := passing_eq_error_iff.mp (Fault.of?_eq_some_iff.mp hpassing)
    exact ⟨he, child, hchild, hname⟩
  refine ⟨hfault e, ?_⟩
  rintro ⟨rfl, child, hchild, hname⟩
  cases hpass : before.mapM passing with
  | error e => rw [(hfault e hpass).1]
  | ok warnings =>
      obtain ⟨ws, -, hws⟩ := Json.exists_mem_of_forall₂ (Fault.mapM_eq_ok_iff.mp hpass) hchild
      rw [passing_eq_error_iff.mpr ⟨rfl, hname⟩] at hws
      cases hws

/-! ## The selected port -/

theorem exposedPort_of_portNumber?_eq_none {deployment port : Value}
    (h : portNumber? port = none) : exposedPort workload deployment port index =
      deployment.fullName >>= fun name => port.quoted >>= fun shown =>
        .error (.invalidPort name shown workload.name index) := by
  rw [exposedPort, h]
  simp only [invalidPort]
  cases deployment.fullName with
  | error e => rfl
  | ok name => cases port.quoted <;> rfl

/-- An invalid port is reported with its deployment and its place, unless the report would have to
show an integer that cannot be shown. -/
theorem exposedPort_eq_error_iff {deployment port : Value} {entries : Entries}
    (h : deployment.deployment? = some entries) {e : Fault} :
    exposedPort workload deployment port index = .error e ↔
      portNumber? port = none ∧
        (e = .badValue ∧ (deployment.ownName.ShowsLongInt ∨ port.ShowsLongInt) ∨
          ∃ name shown, deployment.fullName = .ok name ∧ port.quoted = .ok shown ∧
            e = .invalidPort name shown workload.name index) := by
  cases hnumber : portNumber? port with
  | some n => simp [exposedPort_eq_ok_iff.mpr hnumber]
  | none =>
      rw [exposedPort_of_portNumber?_eq_none hnumber]
      cases hname : deployment.fullName with
      | error e' =>
          obtain ⟨rfl, hlong⟩ := (Value.fullName_eq_error_iff h).mp hname
          simp [hlong, bind, Except.bind, eq_comm]
      | ok name =>
          have hshort : ¬deployment.ownName.ShowsLongInt := fun hlong => by
            rw [(Value.fullName_eq_error_iff h).mpr ⟨rfl, hlong⟩] at hname
            cases hname
          cases hshown : port.quoted with
          | error e' =>
              obtain ⟨rfl, hlong⟩ := Value.quoted_eq_error_iff.mp hshown
              simp [hlong, bind, Except.bind, eq_comm]
          | ok shown =>
              have hshort' : ¬port.ShowsLongInt := fun hlong => by
                rw [Value.quoted_eq_error_iff.mpr ⟨rfl, hlong⟩] at hshown
                cases hshown
              simp [hshort, hshort', bind, Except.bind, eq_comm]

/-! ## The injection along a list -/

/-- What an injection returns for the number of the port that was found, if one was. -/
def injected (workload : Workload) (labels : Entries) (children : List Value) :
    Option Int → Outcome
  | none => .unchanged
  | some n => .replaced (.ofList (children ++ [manifest workload (.int n) labels labels]))

variable {mark : Mark} {children : List Value} {labels : Entries}

/-- An injection goes as its search goes. -/
theorem runIn_inject (hne : children ≠ []) (hlabels : ctx.labels workload = .ok labels)
    {found : Except Fault (Option Int)} {warnings : List Text}
    (hfind : (findPort workload 0 children).runIn ctx = (found, ctx.warned warnings)) :
    (inject workload (.list mark children)).runIn ctx =
      (found.map (injected workload labels children), ctx.warned warnings) := by
  have hwarned : (ctx.warned warnings).labels workload = .ok labels := hlabels
  have hbuild (port : Value) : (build workload port).runIn (ctx.warned warnings) =
      (.ok (manifest workload port labels labels), ctx.warned warnings) := by
    rw [build, Run.runIn_bind, Run.runIn_labels, hwarned]
    simp only
    rw [Run.runIn_bind, Run.runIn_labels, hwarned]
    rfl
  rw [inject, Value.isTruthy_list mark hne]
  simp only [Bool.not_true, Bool.false_eq_true, if_false, Value.items?]
  rw [Run.runIn_bind, hfind]
  cases found with
  | error e => rfl
  | ok found =>
      cases found with
      | none => rfl
      | some n =>
          simp only
          rw [Run.runIn_bind, hbuild]
          rfl

/-! ## The children that are passed over -/

/-- The children before the first one that declares a port, or all of them. -/
def passedOver (children : List Value) : List Value :=
  children.takeWhile fun child => child.declaredPort?.isNone

theorem declaredPort?_of_mem_passedOver {child : Value} (h : child ∈ passedOver children) :
    child.declaredPort? = none := by
  simpa using List.mem_takeWhile_imp h

/-- Either all children are passed over, or the first one after them declares a port. -/
theorem passedOver_cases (children : List Value) :
    passedOver children = children ∨
      ∃ child port rest, children = passedOver children ++ child :: rest ∧
        child.declaredPort? = some port := by
  have hsplit := List.takeWhile_append_dropWhile
    (p := fun child : Value => child.declaredPort?.isNone) (l := children)
  cases hrest : children.dropWhile fun child => child.declaredPort?.isNone with
  | nil =>
      rw [hrest, List.append_nil] at hsplit
      exact .inl hsplit
  | cons child rest =>
      have hport :=
        List.head?_dropWhile_not (fun child : Value => child.declaredPort?.isNone) children
      rw [hrest] at hport hsplit
      obtain ⟨port, hport⟩ := Option.isSome_iff_exists.mp (by simpa using hport)
      exact .inr ⟨child, port, rest, hsplit.symm, hport⟩

/-- The ways in which an injection can end: it fails at a child that cannot be passed over, or finds
no port, or selects the first port of the child after those that were passed over. -/
inductive Ending (workload : Workload) (labels : Entries) (children : List Value) (ctx : Context) :
    Except Fault Outcome → Context → Prop
  | stuck (warnings : List Text) (hstuck : ∃ child ∈ passedOver children, child.Unmentionable) :
      Ending workload labels children ctx (.error .badValue) (ctx.warned warnings)
  | nothing {warnings : List (List Text)}
      (hpass : (passedOver children).mapM passing = .ok warnings)
      (hall : passedOver children = children) :
      Ending workload labels children ctx (.ok .unchanged) (ctx.warned warnings.flatten)
  | selected {warnings : List (List Text)} {deployment port : Value} {rest : List Value}
      (hpass : (passedOver children).mapM passing = .ok warnings)
      (hsplit : children = passedOver children ++ deployment :: rest)
      (hport : deployment.declaredPort? = some port) :
      Ending workload labels children ctx
        ((exposedPort workload deployment port (passedOver children).length).map fun n =>
          injected workload labels children (some n))
        (ctx.warned warnings.flatten)

/-- Every injection ends in one of these ways. -/
theorem inject_ending (mark : Mark) (hne : children ≠ [])
    (hlabels : ctx.labels workload = .ok labels) :
    Ending workload labels children ctx ((inject workload (.list mark children)).runIn ctx).1
      ((inject workload (.list mark children)).runIn ctx).2 := by
  have hnone (child : Value) (hchild : child ∈ passedOver children) : child.declaredPort? = none :=
    declaredPort?_of_mem_passedOver hchild
  have hprefix : children = passedOver children ++
      children.dropWhile fun child => child.declaredPort?.isNone :=
    List.takeWhile_append_dropWhile.symm
  cases hpass : (passedOver children).mapM passing with
  | error e =>
      obtain ⟨rfl, hstuck⟩ := mapM_passing_eq_error_iff.mp hpass
      obtain ⟨warnings, hfind⟩ := runIn_findPort_append_stuck workload ctx 0
        (children.dropWhile fun child => child.declaredPort?.isNone) hnone hpass
      rw [← hprefix] at hfind
      rw [runIn_inject hne hlabels hfind]
      exact .stuck warnings hstuck
  | ok warnings =>
      rcases passedOver_cases children with hall | ⟨deployment, port, rest, hsplit, hport⟩
      · have hfind := runIn_findPort_append workload ctx 0 [] hnone hpass
        rw [List.append_nil, hall] at hfind
        rw [runIn_inject hne hlabels hfind]
        exact .nothing hpass hall
      · have hfind := runIn_findPort_append workload ctx 0 (deployment :: rest) hnone hpass
        rw [runIn_findPort_of_declared rest hport, Nat.zero_add, ← hsplit] at hfind
        have hselected : Ending workload labels children ctx _ _ := .selected hpass hsplit hport
        rw [runIn_inject hne hlabels hfind]
        cases hexposed : exposedPort workload deployment port (passedOver children).length with
        | error e =>
            rw [hexposed] at hselected
            exact hselected
        | ok n =>
            rw [hexposed] at hselected
            exact hselected

theorem mentionable_of_mapM_passing {warnings : List (List Text)}
    (h : before.mapM passing = .ok warnings) : ∀ child ∈ before, ¬child.Unmentionable := by
  intro child hchild hname
  rw [mapM_passing_eq_error_iff.mpr ⟨rfl, child, hchild, hname⟩] at h
  cases h

theorem exists_mapM_passing (h : ∀ child ∈ before, ¬child.Unmentionable) :
    ∃ warnings, before.mapM passing = .ok warnings := by
  cases hpass : before.mapM passing with
  | ok warnings => exact ⟨warnings, rfl⟩
  | error e =>
      obtain ⟨-, child, hchild, hname⟩ := mapM_passing_eq_error_iff.mp hpass
      exact (h child hchild hname).elim

namespace Ending

/-- Warnings are added at most. -/
theorem exists_warned {outcome : Except Fault Outcome} {last : Context}
    (h : Ending workload labels children ctx outcome last) :
    ∃ warnings, last = ctx.warned warnings := by
  cases h with
  | stuck warnings => exact ⟨warnings, rfl⟩
  | @nothing warnings => exact ⟨warnings.flatten, rfl⟩
  | @selected warnings => exact ⟨warnings.flatten, rfl⟩

theorem not_split (hall : passedOver children = children) {deployment : Value} :
    children ≠ passedOver children ++ deployment :: rest := by
  rw [hall]
  intro h
  have hlength := congrArg List.length h
  simp at hlength

/-- An injection has one outcome. -/
theorem unique {outcome outcome' : Except Fault Outcome} {last last' : Context}
    (h : Ending workload labels children ctx outcome last)
    (h' : Ending workload labels children ctx outcome' last') : outcome = outcome' := by
  cases h with
  | stuck _ hstuck =>
      obtain ⟨child, hchild, hname⟩ := hstuck
      cases h' with
      | stuck => rfl
      | nothing hpass => exact (mentionable_of_mapM_passing hpass child hchild hname).elim
      | selected hpass => exact (mentionable_of_mapM_passing hpass child hchild hname).elim
  | nothing hpass hall =>
      cases h' with
      | stuck _ hstuck =>
          obtain ⟨child, hchild, hname⟩ := hstuck
          exact (mentionable_of_mapM_passing hpass child hchild hname).elim
      | nothing => rfl
      | selected _ hsplit => exact (not_split hall hsplit).elim
  | selected hpass hsplit hport =>
      cases h' with
      | stuck _ hstuck =>
          obtain ⟨child, hchild, hname⟩ := hstuck
          exact (mentionable_of_mapM_passing hpass child hchild hname).elim
      | nothing _ hall => exact (not_split hall hsplit).elim
      | selected _ hsplit' hport' =>
          obtain ⟨rfl, -⟩ := List.cons.inj (List.append_cancel_left (hsplit.symm.trans hsplit'))
          rw [hport] at hport'
          cases hport'
          rfl

theorem inject_eq {outcome : Except Fault Outcome} {last : Context}
    (h : Ending workload labels children ctx outcome last) (mark : Mark) (hne : children ≠ [])
    (hlabels : ctx.labels workload = .ok labels) :
    ((inject workload (.list mark children)).runIn ctx).1 = outcome :=
  (inject_ending mark hne hlabels).unique h

end Ending

end Service

end ManifestChain
