import ManifestChain.Proofs.Chain
import ManifestChain.Proofs.Service.EntryOrder

/-!
# The standard chain and the order of entries

The standard chain does not look at the order of entries: for children that are the same up to it,
at any depth, the chain returns one application, byte by byte, or fails for both. Only kinds that
are no texts would be shown in their order in the names of templates.
-/

namespace ManifestChain

variable {workload : Workload}

namespace Value

/-- The kind of a mapping is missing or a text. -/
def KindIsText (child : Value) : Prop :=
  ∀ entries kind, child.entries? = some entries → entries.get? "kind" = some kind →
    ∃ t, kind = text t

/-- Lists of matching children whose kinds are texts, or nothing. -/
inductive MatchingChildren : Value → Value → Prop
  | nothing : MatchingChildren null null
  | list (m n : Mark) {cs ds : List Value}
      (items : List.Forall₂ (fun c d => c.Matches d ∧ c.KindIsText) cs ds) :
      MatchingChildren (list m cs) (list n ds)

/-- Children that match have one kind, where it is a text. -/
theorem Matches.kindText {c d : Value} (h : c.Matches d) (hkind : c.KindIsText) :
    c.kindText = d.kindText := by
  rcases h.reordered.eq_or_manifest with rfl | ⟨hc, hd⟩
  · rfl
  · have hentries := h.entries?
    rw [kindText_of_manifest hc, kindText_of_manifest hd]
    unfold KindIsText at hkind
    generalize c.entries? = es at hentries hkind ⊢
    generalize d.entries? = fs at hentries ⊢
    cases hentries with
    | none => rfl
    | @some es fs hmatches =>
        have hfield : Value.field es "kind" = Value.field fs "kind" := by
          have hget := hmatches.get? "kind"
          rw [Value.field, Value.field]
          cases hfound : es.get? "kind" with
          | none =>
              cases hfound' : fs.get? "kind" with
              | none => rfl
              | some kind =>
                  rw [hfound, hfound'] at hget
                  cases hget
          | some kind =>
              obtain ⟨found, hfound', hmatch⟩ := exists_of_rel hget hfound
              obtain ⟨t, rfl⟩ := hkind es kind rfl hfound
              rw [hfound', reordered_text_left_iff.mp hmatch.reordered]
        simp only [hfield]

end Value

open Value (MatchingChildren)

variable {name uid key : Text}

namespace Service

theorem kindIsText_manifest (port : Value) (labels selector : Entries) :
    (manifest workload port labels selector).KindIsText := by
  intro entries kind hentries hkind
  cases hentries
  cases hkind
  exact ⟨_, rfl⟩

theorem build_paired (port : Value) :
    Run.Paired (.text key) (fun s s' =>
        s = manifest workload port [(.text key, workload.uid)] [(.text key, workload.uid)] ∧ s' = s)
      (build workload port) (build workload port) := by
  refine .bind (.labels workload rfl) fun labels labels' hlabels => ?_
  refine .bind (.labels workload rfl) fun selector selector' hselector => ?_
  rw [hlabels.1, hlabels.2, hselector.1, hselector.2]
  exact .pure ⟨rfl, rfl⟩

/-- For children that match, the injection yields children that match: the same service is added to
both, or none. -/
theorem inject_paired (hname : workload.name = .text name) (huid : workload.uid = .text uid)
    {m n : Mark} {cs ds : List Value}
    (h : List.Forall₂ (fun c d => c.Matches d ∧ c.KindIsText) cs ds) :
    Run.Paired (.text key)
      (fun o o' => MatchingChildren (o.value (.list m cs)) (o'.value (.list n ds)))
      (inject workload (.list m cs)) (inject workload (.list n ds)) := by
  have hchildren := h
  cases h with
  | nil => exact .pure .nothing
  | cons hcd hrest =>
      have hmatches := hchildren.imp fun _ _ hcd => hcd.1
      refine .bind (findPort_paired (.text key) hmatches 0) fun found _ hfound => ?_
      rw [← hfound]
      cases found with
      | none => exact .pure (.list m n hchildren)
      | some port =>
          refine .bind (build_paired (.int port)) fun service _ hservice => ?_
          have hadded : service.Matches service ∧ service.KindIsText := by
            rw [hservice.1, huid]
            exact ⟨.refl (wellFormed_manifest hname port), kindIsText_manifest _ _ _⟩
          rw [hservice.2]
          exact .pure (.list none none (List.rel_append hchildren (.cons hadded .nil)))

end Service

namespace Template

/-- Children that match become equal templates. -/
theorem ofChild_paired (index : Nat) {c d : Value} (h : c.Matches d) (hkind : c.KindIsText) :
    Run.Paired (.text key) Eq (ofChild workload index c) (ofChild workload index d) := by
  refine .bind (.ofExcept (h.payload workload.name (some index))) fun payload _ hpayload => ?_
  have hnames : nameOf workload c = nameOf workload d := by
    rw [nameOf, nameOf, h.kindText hkind]
  rw [hpayload, hnames]
  refine .bind (.ofExcept (.refl _)) fun name _ hname => ?_
  refine .bind (.labels workload rfl) fun labels labels' hlabels => ?_
  rw [hname, hlabels.1, hlabels.2]
  exact .pure rfl

theorem ofChildren_paired (index : Nat) {cs ds : List Value}
    (h : List.Forall₂ (fun c d => c.Matches d ∧ c.KindIsText) cs ds) :
    Run.Paired (.text key) Eq (ofChildren workload index cs) (ofChildren workload index ds) := by
  induction h generalizing index with
  | nil => exact .pure rfl
  | cons hcd _ ih =>
      refine .bind (ofChild_paired index hcd.1 hcd.2) fun t _ ht => ?_
      refine .bind (ih (index + 1)) fun ts _ hts => ?_
      rw [ht, hts]
      exact .pure rfl

end Template

namespace Application

theorem wrap?_paired {children children' : Value} (h : MatchingChildren children children') :
    Run.Paired (.text key) Eq (wrap? workload children) (wrap? workload children') := by
  cases h with
  | nothing => exact .pure rfl
  | list m n items =>
      cases items with
      | nil => exact .pure rfl
      | cons hcd items =>
          refine .bind (Template.ofChildren_paired 0 (.cons hcd items)) fun ts _ hts => ?_
          refine .bind (.labels workload rfl) fun labels labels' hlabels => ?_
          rw [hts, hlabels.1, hlabels.2]
          exact .pure rfl

end Application

theorem Translator.kubeAppWrapper_paired {children children' : Value}
    (h : MatchingChildren children children') :
    Run.Paired (.text key) (fun o o' => ∃ result, o = .replaced result ∧ o' = .replaced result)
      (kubeAppWrapper.run workload children) (kubeAppWrapper.run workload children') := by
  refine .bind (Application.wrap?_paired h) fun app _ happ => ?_
  rw [← happ]
  cases app with
  | none => exact .pure ⟨_, rfl, rfl⟩
  | some app => exact .pure ⟨_, rfl, rfl⟩

namespace Chain

theorem runMembers_cons (children member : Value) (rest : List Value) (sofar : Outcome) :
    runMembers workload children (member :: rest) sofar =
      runMember member workload (sofar.value children) >>= fun next =>
        runMembers workload children rest (sofar.after next) := by
  rw [runMembers]
  congr
  funext next
  cases next <;> rfl

theorem translate_standard_eq_runMembers (children : Value) :
    translate workload children standard = runMembers workload children
      [.translator .serviceInjector, .translator .kubeAppWrapper] .unchanged := by
  rw [translate, resolve_standard]
  rfl

/-- The standard chain runs in step on children that match, and makes one outcome of them. -/
theorem translate_paired (hname : workload.name = .text name) (huid : workload.uid = .text uid)
    {m n : Mark} {cs ds : List Value}
    (h : List.Forall₂ (fun c d => c.Matches d ∧ c.KindIsText) cs ds) :
    Run.Paired (.text key) Eq (translate workload (.list m cs) standard)
      (translate workload (.list n ds) standard) := by
  simp only [translate_standard_eq_runMembers, runMembers_cons]
  refine .bind (Service.inject_paired hname huid h) fun injected injected' hinjected => ?_
  rw [Outcome.unchanged_after, Outcome.unchanged_after]
  refine .bind (Translator.kubeAppWrapper_paired hinjected) fun o o' ho => ?_
  obtain ⟨result, rfl, rfl⟩ := ho
  exact .pure rfl

/-- For children that are pairwise the same up to the order of entries at any depth, and whose kinds
are missing or texts, the standard chain returns for one list exactly if it returns for the other,
and what it returns is the same: name, selector, and of every template name, labels and payload, the
added service among them. -/
theorem translate_standard_reordered {ctx ctx' : Context} (hname : workload.name = .text name)
    (huid : workload.uid = .text uid) (hkey : ctx.labelKey = .text key)
    (hkey' : ctx'.labelKey = .text key) {m n : Mark} {cs ds : List Value}
    (h : List.Forall₂ Value.Reordered cs ds) (hcs : ∀ c ∈ cs, c.WellFormed)
    (hds : ∀ d ∈ ds, d.WellFormed) (hkinds : ∀ c ∈ cs, c.KindIsText) (outcome : Outcome) :
    (∃ last, (translate workload (.list m cs) standard).runIn ctx = (.ok outcome, last)) ↔
      ∃ last, (translate workload (.list n ds) standard).runIn ctx' = (.ok outcome, last) := by
  have hchildren : List.Forall₂ (fun c d => c.Matches d ∧ c.KindIsText) cs ds :=
    Json.forall₂_imp_of_mem (Value.forall₂_matches h hcs hds) fun c hc d hcd => ⟨hcd, hkinds c hc⟩
  exact (translate_paired hname huid hchildren).returns_iff hkey hkey' outcome

/-- A deployment and one with the entries of the manifest and of its port the other way round are
both wrapped with a service, in one application. -/
theorem translate_standard_reordered_deployment :
    let workload : Workload := ⟨"w", "", "u"⟩
    let spec (port : Value) : Value := .ofEntries [("template", .ofEntries [("spec",
      .ofEntries [("containers", .ofList [.ofEntries [("ports", .ofList [port])]])])])]
    let c : Value := .ofEntries [("kind", "Deployment"),
      ("spec", spec (.ofEntries [("containerPort", .int 80), ("name", "http")]))]
    let d : Value := .ofEntries
      [("spec", spec (.ofEntries [("name", "http"), ("containerPort", .int 80)])),
        ("kind", "Deployment")]
    ∃ outcome,
      (∃ last, (translate workload (.list none [c]) standard).runIn .initial =
        (.ok outcome, last)) ∧
      ∃ last, (translate workload (.list none [d]) standard).runIn .initial =
        (.ok outcome, last) := by
  intro workload spec c d
  have hreturns : ((translate workload (.list none [c]) standard).runIn
      .initial).1.toOption.isSome = true := by
    decide +kernel
  have hport : (Value.ofEntries [("containerPort", .int 80), ("name", "http")]).Reordered
      (.ofEntries [("name", "http"), ("containerPort", .int 80)]) :=
    .map none none (List.Perm.swap _ _ _) (Value.forall₂_reordered_refl _)
      (Value.forall₂_reordered_refl _)
  have hone (k : Value) {v w : Value} (h : v.Reordered w) :
      (Value.ofEntries [(k, v)]).Reordered (.ofEntries [(k, w)]) :=
    .map none none (.refl _) (Value.forall₂_reordered_refl _) (.cons h .nil)
  have hspec : (spec (.ofEntries [("containerPort", .int 80), ("name", "http")])).Reordered
      (spec (.ofEntries [("name", "http"), ("containerPort", .int 80)])) :=
    hone _ (hone _ (hone _ (.list none none (.cons
      (hone _ (.list none none (.cons hport .nil))) .nil))))
  have hreordered : List.Forall₂ Value.Reordered [c] [d] :=
    .cons (.map none none (List.Perm.swap _ _ _) (Value.forall₂_reordered_refl _)
      (.cons (.same _) (.cons hspec .nil))) .nil
  have hc : ∀ child ∈ [c], child.WellFormed := by
    simp [c, spec, Value.ofEntries, Value.ofList, Value.WellFormed, Value.AllWellFormed,
      Value.EntriesWellFormed, Value.Distinct, Value.equal_text, Text.ofString, Text.ofChars]
  have hd : ∀ child ∈ [d], child.WellFormed := by
    simp [d, spec, Value.ofEntries, Value.ofList, Value.WellFormed, Value.AllWellFormed,
      Value.EntriesWellFormed, Value.Distinct, Value.equal_text, Text.ofString, Text.ofChars]
  have hkinds : ∀ child ∈ [c], child.KindIsText := by
    rw [List.forall_mem_singleton]
    intro entries kind hentries hkind
    cases hentries
    cases hkind
    exact ⟨_, rfl⟩
  generalize hrun : (translate workload (.list none [c]) standard).runIn .initial = result
  rw [hrun] at hreturns
  obtain ⟨_ | outcome, last⟩ := result
  · cases hreturns
  · exact ⟨outcome, ⟨last, rfl⟩, (translate_standard_reordered rfl rfl rfl rfl hreordered hc hd
      hkinds outcome).mp ⟨last, hrun⟩⟩

end Chain

end ManifestChain
