import ManifestChain.Proofs.Chain
import ManifestChain.Proofs.Context.Agreement

/-!
# Warnings and results

What a chain returns, and what it warns of, follows from the children, the chain, the name and the
identity of the workload and the key of its label. Warnings that are there already are kept and
never looked at, so runs that share a context add theirs in turn. The label does not enter what the
templates of the children hold.
-/

namespace ManifestChain

open Run (Agree)

variable (workload : Workload) (nameSpace : Value)

namespace Service

theorem findPort_agree (index : Nat) (children : List Value) :
    Agree (findPort workload index children)
      (findPort { workload with nameSpace } index children) := by
  induction children generalizing index with
  | nil => exact .pure none
  | cons child rest ih =>
      refine .bind (.ofExcept _) fun recognized => ?_
      cases recognized with
      | deployment containers =>
          simp only
          split
          next port _ =>
            exact .bind (.ofExcept (exposedPort workload child port index)) fun _ => .pure _
          next => exact ih (index + 1)
      | service => exact ih (index + 1)
      | other why =>
          simp only
          split
          next =>
            exact .bind (.ofExcept _) fun warning => .bind (.warn warning) fun _ => ih (index + 1)
          next => exact ih (index + 1)

theorem build_agree (port : Value) :
    Agree (build workload port) (build { workload with nameSpace } port) :=
  .bind (.labels workload nameSpace) fun _ => .bind (.labels workload nameSpace) fun _ => .pure _

theorem inject_agree (children : Value) :
    Agree (inject workload children) (inject { workload with nameSpace } children) := by
  unfold inject
  split
  next => exact .pure _
  next =>
    cases children.items? with
    | none => exact .throw _
    | some items =>
        refine .bind (findPort_agree workload nameSpace 0 items) fun found => ?_
        cases found with
        | none => exact .pure _
        | some n => exact .bind (build_agree workload nameSpace (.int n)) fun _ => .pure _

end Service

namespace Template

theorem ofChild_agree (index : Nat) (child : Value) :
    Agree (ofChild workload index child) (ofChild { workload with nameSpace } index child) :=
  .bind (.ofExcept _) fun _ => .bind (.ofExcept _) fun _ =>
    .bind (.labels workload nameSpace) fun _ => .pure _

theorem ofChildren_agree (index : Nat) (children : List Value) :
    Agree (ofChildren workload index children)
      (ofChildren { workload with nameSpace } index children) := by
  induction children generalizing index with
  | nil => exact .pure []
  | cons child rest ih =>
      exact .bind (ofChild_agree workload nameSpace index child) fun _ =>
        .bind (ih (index + 1)) fun _ => .pure _

end Template

theorem Application.wrap?_agree (children : Value) :
    Agree (wrap? workload children) (wrap? { workload with nameSpace } children) := by
  unfold wrap?
  split
  next => exact .pure _
  next =>
    cases children.items? with
    | none => exact .throw _
    | some items =>
        exact .bind (Template.ofChildren_agree workload nameSpace 0 items) fun _ =>
          .bind (.labels workload nameSpace) fun _ => .pure _

theorem Translator.run_agree (t : Translator) (children : Value) :
    Agree (t.run workload children) (t.run { workload with nameSpace } children) := by
  cases t with
  | serviceInjector => exact Service.inject_agree workload nameSpace children
  | kubeAppWrapper =>
      refine .bind (Application.wrap?_agree workload nameSpace children) fun result => ?_
      cases result <;> exact .pure _

namespace Chain

theorem runMember_agree (member children : Value) :
    Agree (runMember member workload children)
      (runMember member { workload with nameSpace } children) := by
  cases member with
  | translator t => exact t.run_agree workload nameSpace children
  | constant result => exact .pure _
  | _ => exact .throw _

theorem runMembers_agree (children : Value) (members : List Value) (sofar : Outcome) :
    Agree (runMembers workload children members sofar)
      (runMembers { workload with nameSpace } children members sofar) := by
  induction members generalizing sofar with
  | nil => exact .pure sofar
  | cons member rest ih =>
      refine .bind (runMember_agree workload nameSpace member _) fun next => ?_
      cases next with
      | unchanged => exact ih sofar
      | replaced result => exact ih (.replaced result)

/-- A chain has one outcome and adds the same warnings for a workload wherever it is. -/
theorem translate_agree (children chain : Value) :
    Agree (translate workload children chain)
      (translate { workload with nameSpace } children chain) :=
  .bind (.ofExcept _) fun members => runMembers_agree workload nameSpace children members .unchanged

/-! ## Runs that share a context -/

/-- What is asked for: a chain to be run on the children of a workload. -/
structure Request where
  workload : Workload
  children : Value
  chain : Value

namespace Request

def run (r : Request) : Run Outcome := translate r.workload r.children r.chain

/-- The outcome of a request under a key of the label. -/
def outcome (r : Request) (key : Value) : Except Fault Outcome := (r.run.runIn ⟨key, [], .null⟩).1

/-- The warnings that a request adds under a key of the label. -/
def warnings (r : Request) (key : Value) : List Text := (r.run.runIn ⟨key, [], .null⟩).2.warnings

/-- The outcomes of requests one after the other, each made in the context that the one before left,
and the context after the last. A request that fails does not keep the next from being made. -/
def runAll : List Request → Context → List (Except Fault Outcome) × Context
  | [], ctx => ([], ctx)
  | r :: rest, ctx =>
    let (outcome, mid) := r.run.runIn ctx
    let (outcomes, last) := runAll rest mid
    (outcome :: outcomes, last)

theorem runIn_run (r : Request) (ctx : Context) : r.run.runIn ctx =
    (r.outcome ctx.labelKey,
      { ctx with warnings := ctx.warnings ++ r.warnings ctx.labelKey }) := by
  have hkey : ctx.labelKey = (Context.mk ctx.labelKey [] .null).labelKey := rfl
  obtain ⟨outcome, suffix, hctx, hfresh⟩ :=
    (translate_agree r.workload r.workload.nameSpace r.children r.chain).runIn hkey
  change r.run.runIn _ = _ at hctx hfresh
  rw [Request.outcome, Request.warnings, hctx, hfresh]
  rfl

/-- Requests have the outcomes that each of them has alone, and add their warnings in turn. -/
theorem runAll_eq (requests : List Request) (ctx : Context) : runAll requests ctx =
    (requests.map fun r => r.outcome ctx.labelKey,
      { ctx with
        warnings := ctx.warnings ++ requests.flatMap fun r => r.warnings ctx.labelKey }) := by
  induction requests generalizing ctx with
  | nil => simp [runAll]
  | cons r rest ih => simp [runAll, runIn_run, ih, List.append_assoc]

end Request

end Chain

/-! ## The templates of the children -/

variable {workload} {workload' : Workload} {labels labels' : Entries} {ctx ctx' : Context}

namespace Template

/-- What a template holds besides the label of its workload. -/
def content (t : Template) : Value × List UInt8 := (t.name, t.payload)

/-- Templates that capture one child for workloads of one name differ in the labels at most. -/
theorem Captures.content_eq {child : Value} {t t' : Template}
    (hname : workload.name = workload'.name) (h : Captures workload labels child t)
    (h' : Captures workload' labels' child t') : t.content = t'.content := by
  obtain ⟨name, hshown, htext⟩ := h.name
  obtain ⟨name', hshown', htext'⟩ := h'.name
  obtain ⟨index, hpayload⟩ := h.payload
  obtain ⟨index', hpayload'⟩ := h'.payload
  rw [nameOf, hname, ← nameOf, hshown'] at hshown
  cases hshown
  -- The bytes of a child are the same for every workload and index.
  have hbytes : child.payload workload'.name index' = .ok t.payload :=
    Value.payload_eq_ok_iff.mpr (Value.payload_eq_ok_iff.mp hpayload)
  rw [hbytes] at hpayload'
  rw [content, content, htext, htext', Except.ok.inj hpayload']

theorem map_content_eq {children : List Value} {ts ts' : List Template}
    (hname : workload.name = workload'.name)
    (h : List.Forall₂ (Captures workload labels) children ts)
    (h' : List.Forall₂ (Captures workload' labels') children ts') :
    ts.map content = ts'.map content := by
  induction h generalizing ts' with
  | nil =>
      cases h'
      rfl
  | cons hchild _ ih => cases h' with
    | cons hchild' hrest' =>
        rw [List.map_cons, List.map_cons, hchild.content_eq hname hchild', ih hrest']

end Template

namespace Chain

/-- The standard chain returns one application, whose templates capture the children and after them
what was added. -/
theorem translate_standard_captures {mark : Mark} {children : List Value} {outcome : Outcome}
    (hne : children ≠ []) (hlabels : ctx.labels workload = .ok labels)
    (h : (translate workload (.list mark children) standard).runIn ctx = (.ok outcome, ctx')) :
    ∃ app services, outcome = .replaced (.ofList [Application.toValue app]) ∧
      List.Forall₂ (Template.Captures workload labels) (children ++ services) app.templates := by
  obtain ⟨injected, mid, result, hinject, hresult, rfl⟩ := translate_standard_steps h
  obtain ⟨hmid, mark', wrapped, hvalue, hexposed⟩ := Service.inject_ok hne hlabels hinject
  obtain ⟨services, rfl, -⟩ := hexposed.exists_append
  rw [hvalue] at hresult
  obtain ⟨templates, rfl, hcaptures⟩ := Application.wrap?_ok (by simp [hne]) hmid hresult
  exact ⟨_, services, rfl, hcaptures⟩

/-- Warnings and deadline of a context, and the place of a workload, change neither what a chain
returns or fails with nor what it warns of, and the warnings that stand in the context stay before
those that are added. So requests made in one context, whether they fail or not, have the outcomes
that each has alone, and their warnings follow in turn. Where only the label differs, the standard
chain gives the templates of the children the same names and payloads. -/
theorem translate_diagnostics (hname : workload.name = workload'.name) :
    (workload.uid = workload'.uid → ctx.labelKey = ctx'.labelKey → ∀ children chain,
      ∃ outcome suffix,
        (translate workload children chain).runIn ctx =
          (outcome, { ctx with warnings := ctx.warnings ++ suffix }) ∧
        (translate workload' children chain).runIn ctx' =
          (outcome, { ctx' with warnings := ctx'.warnings ++ suffix })) ∧
    (∀ requests, Request.runAll requests ctx =
      (requests.map fun r => r.outcome ctx.labelKey,
        { ctx with
          warnings := ctx.warnings ++ requests.flatMap fun r => r.warnings ctx.labelKey })) ∧
    ∀ {key key' : Text} {mark : Mark} {children : List Value} {outcome outcome' : Outcome}
      {last last' : Context}, ctx.labelKey = .text key → ctx'.labelKey = .text key' →
      children ≠ [] →
      (translate workload (.list mark children) standard).runIn ctx = (.ok outcome, last) →
      (translate workload' (.list mark children) standard).runIn ctx' = (.ok outcome', last') →
      ∃ app app', outcome = .replaced (.ofList [Application.toValue app]) ∧
        outcome' = .replaced (.ofList [Application.toValue app']) ∧
        children.length ≤ app.templates.length ∧ children.length ≤ app'.templates.length ∧
        (app.templates.take children.length).map Template.content =
          (app'.templates.take children.length).map Template.content := by
  refine ⟨fun huid hkey children chain => ?_, fun requests => Request.runAll_eq requests ctx, ?_⟩
  · have hplace : workload' = { workload with nameSpace := workload'.nameSpace } := by
      rw [hname, huid]
    rw [hplace]
    exact (translate_agree workload workload'.nameSpace children chain).runIn hkey
  · intro key key' mark children outcome outcome' last last' hkey hkey' hne hrun hrun'
    have hlabels : ctx.labels workload = .ok [(.text key, workload.uid)] := by
      rw [Context.labels, hkey]
      rfl
    have hlabels' : ctx'.labels workload' = .ok [(.text key', workload'.uid)] := by
      rw [Context.labels, hkey']
      rfl
    obtain ⟨app, services, houtcome, hcaptures⟩ := translate_standard_captures hne hlabels hrun
    obtain ⟨app', services', houtcome', hcaptures'⟩ :=
      translate_standard_captures hne hlabels' hrun'
    refine ⟨app, app', houtcome, houtcome', ?_, ?_, ?_⟩
    · rw [← hcaptures.length_eq, List.length_append]
      exact Nat.le_add_right _ _
    · rw [← hcaptures'.length_eq, List.length_append]
      exact Nat.le_add_right _ _
    · have hfirst := List.forall₂_take children.length hcaptures
      have hfirst' := List.forall₂_take children.length hcaptures'
      rw [List.take_left] at hfirst hfirst'
      exact Template.map_content_eq hname hfirst hfirst'

/-- A deployment that cannot be interpreted is warned of in one way, whatever stands in the context,
and its template is the same under every label. -/
theorem translate_diagnostics_malformed :
    let here : Workload := ⟨"w", "here", "u"⟩
    let there : Workload := ⟨"w", "there", "u"⟩
    let other : Workload := ⟨"w", "here", "v"⟩
    let later : Context := ⟨.text defaultLabelKey, ["earlier"], .int 5⟩
    let children : List Value := [.ofEntries [("kind", "Deployment"), ("spec", "none")]]
    (∃ outcome suffix,
      (translate here (.list none children) standard).runIn .initial =
        (outcome, { Context.initial with warnings := Context.initial.warnings ++ suffix }) ∧
      (translate there (.list none children) standard).runIn later =
        (outcome, { later with warnings := later.warnings ++ suffix })) ∧
    ∃ app app', ((translate here (.list none children) standard).runIn .initial).1 =
        .ok (.replaced (.ofList [Application.toValue app])) ∧
      ((translate other (.list none children) standard).runIn { later with labelKey := "k" }).1 =
        .ok (.replaced (.ofList [Application.toValue app'])) ∧
      1 ≤ app.templates.length ∧ 1 ≤ app'.templates.length ∧
      (app.templates.take 1).map Template.content =
        (app'.templates.take 1).map Template.content := by
  intro here there other later children
  have hplace := @translate_diagnostics here there .initial later rfl
  have hlabel := @translate_diagnostics here other .initial { later with labelKey := "k" } rfl
  refine ⟨hplace.1 rfl rfl (.list none children) standard, ?_⟩
  have hreturns : ((translate here (.list none children) standard).runIn
      .initial).1.toOption.isSome = true := by decide +kernel
  have hreturns' : ((translate other (.list none children) standard).runIn
      { later with labelKey := "k" }).1.toOption.isSome = true := by decide +kernel
  generalize hrun : (translate here (.list none children) standard).runIn .initial = result
  generalize hrun' : (translate other (.list none children) standard).runIn
    { later with labelKey := "k" } = result'
  rw [hrun] at hreturns
  rw [hrun'] at hreturns'
  obtain ⟨_ | outcome, last⟩ := result
  · cases hreturns
  obtain ⟨_ | outcome', last'⟩ := result'
  · cases hreturns'
  obtain ⟨app, app', rfl, rfl, hsame⟩ := hlabel.2.2 rfl rfl (List.cons_ne_nil _ _) hrun hrun'
  exact ⟨app, app', rfl, rfl, hsame⟩

end Chain

end ManifestChain
