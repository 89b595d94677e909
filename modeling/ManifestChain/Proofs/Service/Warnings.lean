import ManifestChain.Proofs.Child.Recognition
import ManifestChain.Proofs.Service.Search

/-!
# The warnings of an injection

An injection passes the children before the first one that declares a port. Its warnings are those
about the deployments among them that cannot be interpreted, one for each, in the order of the
children. A warning names the deployment and gives the first thing that is wrong with it.
-/

namespace ManifestChain

namespace Value

/-- A deployment that cannot be interpreted. -/
def Deformed (v : Value) : Prop :=
  (∃ entries, v.HasKind "Deployment" entries) ∧ ¬∃ containers, v.Interpretable containers

/-- A deployment that can be interpreted and declares a port. -/
def Exposes (v : Value) : Prop :=
  ∃ containers, v.Interpretable containers ∧ ∃ c ∈ containers, c.DeclaresPort

/-- The first container of a deployment that cannot be interpreted. -/
def FirstStray (v c : Value) : Prop :=
  ∃ entries before rest, v.HasKind "Deployment" entries ∧
    entries.Leads podPath (before ++ c :: rest) ∧ (∀ b ∈ before, b.IsContainer) ∧ ¬c.IsContainer

/-- The first thing that is wrong with a deployment, in words: that its path leads nowhere, or else
what is wrong with its first container that cannot be interpreted. -/
inductive Deformation (v : Value) : Text → Prop
  | path {entries : Entries} (deployment : v.HasKind "Deployment" entries)
      (astray : ∀ containers, ¬entries.Leads podPath containers) :
      Deformation v "pod template is not a mapping or containers is not a list"
  | entry {c : Value} (first : v.FirstStray c) (plain : c.isMapping = false) :
      Deformation v "container entry is not a mapping"
  | ports {c : Value} {name : Text} (first : v.FirstStray c) (mapping : c.isMapping = true)
      (named : c.nameIn.shown = .ok name) :
      Deformation v ("ports of container '" ++ name ++ "' is not a list")

variable {v c : Value} {entries : Entries}

theorem deformed_iff : v.Deformed ↔ v.deployment?.isSome = true ∧ v.containers? = none := by
  simp only [Deformed, ← deployment?_eq_some_iff_hasKind, ← containers?_eq_some_iff_interpretable,
    Option.isSome_iff_exists, Option.eq_none_iff_forall_ne_some, not_exists, ne_eq]

theorem exposes_iff : v.Exposes ↔ v.declaredPort?.isSome = true := by
  simp only [Exposes, ← containers?_eq_some_iff_interpretable, ← isSome_firstPort?_iff,
    declaredPort?_eq]
  cases v.containers? <;> simp

theorem firstStray_of_strayContainer? (h : v.strayContainer? = some c) : v.FirstStray c := by
  obtain ⟨containers, hpath, hfind⟩ := Option.bind_eq_some_iff.mp h
  obtain ⟨entries, hdeployment, hleads⟩ := Option.bind_eq_some_iff.mp hpath
  obtain ⟨hstray, before, rest, rfl, hbefore⟩ := List.find?_eq_some_iff_append.mp hfind
  refine ⟨entries, before, rest, deployment?_eq_some_iff_hasKind.mp hdeployment,
    containersAlong?_eq_some_iff.mp hleads, fun b hb => ?_, fun hc => ?_⟩
  · exact isContainer_eq_true_iff.mp (by simpa using hbefore b hb)
  · rw [isContainer_eq_true_iff.mpr hc] at hstray
    cases hstray

theorem deformation_of_malformation {why : Otherness} (h : v.deployment? = some entries)
    (hnone : v.containers? = none) (hwhy : v.malformation = .ok why) : v.Deformation why.text := by
  rw [malformation] at hwhy
  split at hwhy
  next c hstray =>
    have hfirst := firstStray_of_strayContainer? hstray
    rw [strayReason] at hwhy
    split at hwhy
    next hmapping =>
      obtain ⟨name, hname, rfl⟩ := Fault.map_eq_ok_iff.mp hwhy
      exact .ports hfirst hmapping hname
    next hplain =>
      cases hwhy
      exact .entry hfirst (by simpa using hplain)
  next hstray =>
    cases hwhy
    refine .path (deployment?_eq_some_iff_hasKind.mp h) fun containers hleads => ?_
    -- Containers at the end of the path, none of them stray, could be interpreted.
    have hpath : v.deployment?.bind podContainers? = some containers := by
      rw [h, Option.bind_some]
      exact containersAlong?_eq_some_iff.mpr hleads
    have hsound : ∀ c ∈ containers, c.isContainer = true := by
      rw [strayContainer?, hpath, Option.bind_some] at hstray
      simpa using hstray
    rw [containers?_eq_some_iff.mpr ⟨hpath, hsound⟩] at hnone
    cases hnone

end Value

namespace Service

/-- The place where a search stops: that of the first child that declares a port, or the end. -/
structure StopsAt (children : List Value) (s : Nat) : Prop where
  le : s ≤ children.length
  before : ∀ j < s, ∀ child, children[j]? = some child → ¬child.Exposes
  there : ∀ child, children[s]? = some child → child.Exposes

/-- The warning about a deployment: its name, and what is wrong with it first. -/
def Reports (child : Value) (warning : Text) : Prop :=
  ∃ called reason, child.fullName = .ok called ∧ child.Deformation reason ∧
    warning = called ++ " skipped for service injection: " ++ reason

/-- The warnings are those about the first children up to a place: one for each place of a
deployment that cannot be interpreted, in ascending order. -/
def Traced (children : List Value) (s : Nat) (warnings : List Text) : Prop :=
  ∃ places : List Nat, places.Pairwise (· < ·) ∧
    (∀ j, j ∈ places ↔ j < s ∧ ∃ child, children[j]? = some child ∧ child.Deformed) ∧
    List.Forall₂ (fun j warning => ∃ child, children[j]? = some child ∧ Reports child warning)
      places warnings

variable {workload : Workload} {ctx : Context} {mark : Mark} {child : Value}
  {children rest : List Value} {s k : Nat} {warnings : List Text}

/-! ## The place where the search stops -/

theorem stopsAt_cons_of_exposes (rest : List Value) (h : child.Exposes) :
    StopsAt (child :: rest) 0 where
  le := Nat.zero_le _
  before := nofun
  there _ hchild := Option.some.inj hchild ▸ h

theorem StopsAt.cons (h : StopsAt rest s) (hchild : ¬child.Exposes) :
    StopsAt (child :: rest) (s + 1) where
  le := Nat.succ_le_succ h.le
  before
    | 0, _, _, hfirst => Option.some.inj hfirst ▸ hchild
    | j + 1, hj, d, hd => h.before j (Nat.lt_of_succ_lt_succ hj) d hd
  there := h.there

theorem exists_stopsAt (children : List Value) : ∃ s, StopsAt children s := by
  induction children with
  | nil => exact ⟨0, Nat.le_refl 0, nofun, nofun⟩
  | cons child rest ih =>
      by_cases hchild : child.Exposes
      · exact ⟨0, stopsAt_cons_of_exposes rest hchild⟩
      · obtain ⟨s, hs⟩ := ih
        exact ⟨s + 1, hs.cons hchild⟩

theorem StopsAt.le_of_stopsAt {s' : Nat} (h : StopsAt children s) (h' : StopsAt children s') :
    s ≤ s' := by
  by_contra hlt
  have hlt : s' < s := Nat.not_le.mp hlt
  have hchild := List.getElem?_eq_getElem (Nat.lt_of_lt_of_le hlt h.le)
  exact h.before s' hlt _ hchild (h'.there _ hchild)

/-- The search stops at one place. -/
theorem StopsAt.unique {s' : Nat} (h : StopsAt children s) (h' : StopsAt children s') : s = s' :=
  Nat.le_antisymm (h.le_of_stopsAt h') (h'.le_of_stopsAt h)

/-! ## The warnings along a list -/

theorem traced_zero (children : List Value) : Traced children 0 [] :=
  ⟨[], .nil, by simp, .nil⟩

theorem Traced.cons_of_deformed (h : Traced rest k warnings) (hchild : child.Deformed)
    {warning : Text} (hwarning : Reports child warning) :
    Traced (child :: rest) (k + 1) (warning :: warnings) := by
  obtain ⟨places, hascending, hplaces, hreports⟩ := h
  refine ⟨0 :: places.map (· + 1), ?_, fun j => ?_, .cons ⟨child, rfl, hwarning⟩ ?_⟩
  · rw [List.pairwise_cons, List.pairwise_map]
    exact ⟨by simp, hascending.imp Nat.succ_lt_succ⟩
  · cases j with
    | zero => simp [hchild]
    | succ j => simp [hplaces]
  · exact List.forall₂_map_left_iff.mpr hreports

theorem Traced.cons_of_not_deformed (h : Traced rest k warnings) (hchild : ¬child.Deformed) :
    Traced (child :: rest) (k + 1) warnings := by
  obtain ⟨places, hascending, hplaces, hreports⟩ := h
  refine ⟨places.map (· + 1), ?_, fun j => ?_, ?_⟩
  · exact List.pairwise_map.mpr (hascending.imp Nat.succ_lt_succ)
  · cases j with
    | zero => simp [hchild]
    | succ j => simp [hplaces]
  · exact List.forall₂_map_left_iff.mpr hreports

/-- A child that is passed over adds its warning to the trace if it is deformed, and nothing
otherwise. -/
theorem Traced.passing (h : Traced rest k warnings) {added : List Text}
    (hpass : passing child = .ok added) : Traced (child :: rest) (k + 1) (added ++ warnings) := by
  cases hdeployment : child.deployment? with
  | none =>
      rw [passing_of_not_deployment hdeployment] at hpass
      cases hpass
      exact h.cons_of_not_deformed (by simp [Value.deformed_iff, hdeployment])
  | some entries =>
      cases hcontainers : child.containers? with
      | some containers =>
          rw [passing_of_containers? (by rw [hcontainers]; rfl)] at hpass
          cases hpass
          exact h.cons_of_not_deformed (by simp [Value.deformed_iff, hcontainers])
      | none =>
          rw [passing_of_malformed hdeployment hcontainers] at hpass
          obtain ⟨why, hwhy, hpass⟩ := Fault.bind_eq_ok_iff.mp hpass
          obtain ⟨warning, hskipped, rfl⟩ := Fault.map_eq_ok_iff.mp hpass
          obtain ⟨called, hcalled, hreturn⟩ := Fault.bind_eq_ok_iff.mp hskipped
          cases hreturn
          refine h.cons_of_deformed (by simp [Value.deformed_iff, hdeployment, hcontainers]) ?_
          exact ⟨called, _, hcalled,
            Value.deformation_of_malformation hdeployment hcontainers hwhy, rfl⟩

/-- A search warns about the deformed children up to some place, which is the place where it stops
unless a warning before it cannot be shown. -/
theorem runIn_findPort_traced (workload : Workload) (ctx : Context) (index : Nat)
    (children : List Value) : ∃ s k warnings, StopsAt children s ∧ k ≤ s ∧
      Traced children k warnings ∧
      ((findPort workload index children).runIn ctx).2 = ctx.warned warnings ∧
      (((findPort workload index children).runIn ctx).1 ≠ .error .badValue → k = s) := by
  induction children generalizing index ctx with
  | nil => exact ⟨0, 0, [], ⟨Nat.le_refl 0, nofun, nofun⟩, Nat.le_refl 0, traced_zero [],
      (ctx.warned_nil).symm, fun _ => rfl⟩
  | cons child rest ih =>
      cases hport : child.declaredPort? with
      | some port =>
          have hexposes : child.Exposes := Value.exposes_iff.mpr (by rw [hport]; rfl)
          rw [runIn_findPort_of_declared rest hport]
          exact ⟨0, 0, [], stopsAt_cons_of_exposes rest hexposes, Nat.le_refl 0, traced_zero _,
            (ctx.warned_nil).symm, fun _ => rfl⟩
      | none =>
          have hexposes : ¬child.Exposes := by simp [Value.exposes_iff, hport]
          cases hpass : passing child with
          | error e =>
              obtain ⟨rfl, -⟩ := passing_eq_error_iff.mp hpass
              obtain ⟨s, hs⟩ := exists_stopsAt (child :: rest)
              rw [runIn_findPort_of_stuck rest hpass]
              exact ⟨s, 0, [], hs, Nat.zero_le s, traced_zero _, (ctx.warned_nil).symm,
                fun hshown => (hshown rfl).elim⟩
          | ok added =>
              obtain ⟨s, k, warnings, hs, hk, htraced, hrun, hall⟩ :=
                ih (ctx.warned added) (index + 1)
              rw [runIn_findPort_of_passed rest hport hpass, hrun, Context.warned_warned]
              exact ⟨s + 1, k + 1, added ++ warnings, hs.cons hexposes, Nat.succ_le_succ hk,
                htraced.passing hpass, rfl, fun hshown => congrArg (· + 1) (hall hshown)⟩

/-! ## The injection -/

theorem runIn_build_context (workload : Workload) (port : Value) (ctx : Context) :
    ((build workload port).runIn ctx).2 = ctx := by
  rw [build, Run.runIn_bind, Run.runIn_labels]
  cases hlabels : ctx.labels workload with
  | error e => rfl
  | ok labels =>
      simp only [Run.runIn_bind, Run.runIn_labels, hlabels]
      rfl

/-- An injection leaves the context of its search, and fails as the search does. -/
theorem runIn_inject_of_findPort (workload : Workload) (ctx : Context) (mark : Mark)
    (hne : children ≠ []) :
    ((inject workload (.list mark children)).runIn ctx).2 =
        ((findPort workload 0 children).runIn ctx).2 ∧
      ∀ e, ((findPort workload 0 children).runIn ctx).1 = .error e →
        ((inject workload (.list mark children)).runIn ctx).1 = .error e := by
  rw [inject, Value.isTruthy_list mark hne]
  simp only [Bool.not_true, Bool.false_eq_true, if_false, Value.items?]
  rw [Run.runIn_bind]
  rcases (findPort workload 0 children).runIn ctx with ⟨e | found, mid⟩
  · refine ⟨rfl, fun _ h => ?_⟩
    cases h
    rfl
  · refine ⟨?_, fun _ h => by cases h⟩
    cases found with
    | none => rfl
    | some n =>
        obtain ⟨built, hbuilt⟩ : ∃ built, (build workload (.int n)).runIn mid = (built, mid) :=
          ⟨_, Prod.ext rfl (runIn_build_context workload (.int n) mid)⟩
        simp only [Run.runIn_bind, hbuilt]
        cases built <;> rfl

/-- The warnings that an injection adds are those about the deformed children up to some place, and
nothing else. This is the place of the first child that declares a port, or the end, unless the
injection fails because something cannot be shown. -/
theorem inject_warnings (workload : Workload) (ctx : Context) (mark : Mark)
    (children : List Value) :
    let run := (inject workload (.list mark children)).runIn ctx
    ∃ s k warnings, StopsAt children s ∧ k ≤ s ∧ Traced children k warnings ∧
      run.2 = ctx.warned warnings ∧ (run.1 ≠ .error .badValue → k = s) := by
  intro run
  by_cases hne : children = []
  · subst hne
    exact ⟨0, 0, [], ⟨Nat.le_refl 0, nofun, nofun⟩, Nat.le_refl 0, traced_zero [],
      (ctx.warned_nil).symm, fun _ => rfl⟩
  · obtain ⟨hcontext, hfault⟩ := runIn_inject_of_findPort workload ctx mark hne
    obtain ⟨s, k, warnings, hs, hk, htraced, hrun, hall⟩ :=
      runIn_findPort_traced workload ctx 0 children
    exact ⟨s, k, warnings, hs, hk, htraced, hcontext.trans hrun,
      fun hshown => hall fun hstuck => hshown (hfault _ hstuck)⟩

/-- Between a service and a deployment with an invalid port, a deployment without a list of
containers and one with a stray container are warned about. -/
theorem inject_warnings_invalid :
    let workload : Workload := ⟨"w", "", "u"⟩
    let deployment (name : String) (containers : Value) : Value := .ofEntries
      [("kind", "Deployment"), ("metadata", .ofEntries [("name", name)]),
        ("spec", .ofEntries [("template", .ofEntries
          [("spec", .ofEntries [("containers", containers)])])])]
    let port : Value := .ofEntries [("containerPort", .int 0)]
    let children : List Value :=
      [.ofEntries [("kind", "Service")], deployment "a" "none", deployment "b" (.ofList [.null]),
        deployment "c" (.ofList [.ofEntries [("ports", .ofList [port])]]), deployment "d" "none"]
    let run := (inject workload (.list none children)).runIn .initial
    run.1 ≠ .error .badValue ∧ StopsAt children 3 ∧
      ∃ warnings, Traced children 3 warnings ∧ run.2 = Context.initial.warned warnings := by
  intro workload deployment port children run
  have hshown : run.1 ≠ .error .badValue := by
    intro hstuck
    have hcheck : (match run.1 with | .error .badValue => true | _ => false) = false := by
      decide +kernel
    rw [hstuck] at hcheck
    cases hcheck
  have hidle (child : Value) (h : child.declaredPort?.isSome = false) : ¬child.Exposes := by
    rw [Value.exposes_iff, h]
    decide
  have hstops : StopsAt children 3 :=
    (((stopsAt_cons_of_exposes _ (Value.exposes_iff.mpr rfl)).cons (hidle _ rfl)).cons
      (hidle _ rfl)).cons (hidle _ rfl)
  obtain ⟨s, k, warnings, hs, -, htraced, hrun, hall⟩ :=
    inject_warnings workload .initial none children
  obtain rfl := hall hshown
  obtain rfl := hs.unique hstops
  exact ⟨hshown, hstops, warnings, htraced, hrun⟩

end Service

end ManifestChain
