import ManifestChain.Proofs.Payload.EntryOrder
import ManifestChain.Proofs.Service

/-!
# The added service and the order of entries

Children that are the same up to the order of entries are recognized alike: they have matching
containers and ports, and the same is wrong with them, if anything. So the same port is found, or
the search fails for both.
-/

namespace ManifestChain

open Fault (Paired)

/-- Reasons that are both about malformed deployments, or both not. -/
def Otherness.Matches (why why' : Otherness) : Prop := why.isMalformed = why'.isMalformed

/-- Children that are recognized alike: deployments with matching containers, services, or neither
for matching reasons. -/
inductive Child.Matches : Child → Child → Prop
  | deployment {cs ds : List Value} (containers : List.Forall₂ Value.Matches cs ds) :
      Matches (deployment cs) (deployment ds)
  | service : Matches service service
  | other {why why' : Otherness} (reasons : why.Matches why') : Matches (other why) (other why')

namespace Child

theorem ports_matches {c d : Value} (h : c.Matches d) :
    List.Forall₂ Value.Matches (ports c) (ports d) := by
  have hentries := h.entries?
  rw [ports, ports]
  generalize c.entries? = es at hentries ⊢
  generalize d.entries? = fs at hentries ⊢
  cases hentries with
  | none => exact .nil
  | @some es fs hmatches =>
      have hports := hmatches.field "ports"
      simp only
      generalize Value.field es "ports" = v at hports ⊢
      generalize Value.field fs "ports" = w at hports ⊢
      cases v with
      | list mark xs =>
          obtain ⟨n, ys, rfl, items⟩ := Value.matches_list_iff.mp hports
          exact items
      | _ => cases hports.reordered <;> exact .nil

theorem firstPort?_rel {cs ds : List Value} (h : List.Forall₂ Value.Matches cs ds) :
    Option.Rel Value.Matches (firstPort? cs) (firstPort? ds) := by
  induction h with
  | nil => exact .none
  | @cons c d cs ds hcd _ ih =>
      have hports := ports_matches hcd
      rw [firstPort?, firstPort?]
      generalize ports c = ps at hports ⊢
      generalize ports d = qs at hports ⊢
      cases hports with
      | nil => exact ih
      | cons hport _ => exact .some hport

end Child

namespace Value

theorem containersAlong?_rel (keys : List Text) {es fs : Entries}
    (h : (ofEntries es).Matches (ofEntries fs)) :
    Option.Rel (List.Forall₂ Matches) (containersAlong? keys es) (containersAlong? keys fs) := by
  induction keys generalizing es fs with
  | nil =>
      have hcontainers := h.field "containers"
      rw [containersAlong?, containersAlong?]
      generalize field es "containers" = v at hcontainers ⊢
      generalize field fs "containers" = w at hcontainers ⊢
      cases v with
      | null =>
          cases hcontainers.reordered
          exact .some .nil
      | list mark xs =>
          obtain ⟨n, ys, rfl, items⟩ := matches_list_iff.mp hcontainers
          exact .some items
      | _ => cases hcontainers.reordered <;> exact .none
  | cons key keys ih =>
      have hnode := h.field key
      have hentries := hnode.entries?
      rw [containersAlong?, containersAlong?]
      generalize field es key = v at hnode hentries ⊢
      generalize field fs key = w at hnode hentries ⊢
      cases v with
      | null =>
          cases hnode.reordered
          exact .some .nil
      | map mark es' =>
          obtain ⟨n, fs', rfl, -⟩ := reordered_map_iff.mp hnode.reordered
          cases hentries with
          | some hmatches => exact ih hmatches
      | view es' =>
          obtain ⟨fs', rfl, -⟩ := reordered_view_iff.mp hnode.reordered
          cases hentries with
          | some hmatches => exact ih hmatches
      | _ => cases hnode.reordered <;> exact .none

theorem Matches.getD {es fs : Entries} (h : (ofEntries es).Matches (ofEntries fs)) (key : Text)
    (t : Text) : ((es.get? key).getD (text t)).Matches ((fs.get? key).getD (text t)) := by
  have hget := h.get? key
  generalize es.get? key = found at hget ⊢
  generalize fs.get? key = found' at hget ⊢
  cases hget with
  | none => exact .refl trivial
  | some hvalue => exact hvalue

/-- Lists of containers that match can both be interpreted, or are both malformed, or neither can
show the name of the first malformed container. -/
theorem malformedContainer?_paired {cs ds : List Value} (h : List.Forall₂ Matches cs ds) :
    Paired (Option.Rel Otherness.Matches) (malformedContainer? cs) (malformedContainer? ds) := by
  induction h with
  | nil => exact .ok .none
  | @cons c d cs ds hcd _ ih =>
      have hentries := hcd.entries?
      rw [malformedContainer?, malformedContainer?]
      generalize c.entries? = es at hentries ⊢
      generalize d.entries? = fs at hentries ⊢
      cases hentries with
      | none => exact .ok (.some rfl)
      | @some es fs hmatches =>
          have hports := hmatches.field "ports"
          have hname := (hmatches.getD "name" "?").reordered.shown
          simp only
          generalize field es "ports" = v at hports ⊢
          generalize field fs "ports" = w at hports ⊢
          have hmalformed : Paired (Option.Rel Otherness.Matches)
              (((es.get? "name").getD "?").shown >>= fun t => pure (some (.portList t)))
              (((fs.get? "name").getD "?").shown >>= fun t => pure (some (.portList t))) :=
            .bind hname fun _ _ _ => .ok (.some rfl)
          cases v with
          | null =>
              cases hports.reordered
              exact ih
          | list mark xs =>
              obtain ⟨n, ys, rfl, -⟩ := matches_list_iff.mp hports
              exact ih
          | _ => cases hports.reordered <;> exact hmalformed

theorem classifyDeployment_paired {es fs : Entries} (h : (ofEntries es).Matches (ofEntries fs)) :
    Paired Child.Matches (classifyDeployment es) (classifyDeployment fs) := by
  have hcontainers := containersAlong?_rel ["spec", "template", "spec"] h
  rw [classifyDeployment, classifyDeployment, podContainers?, podContainers?]
  generalize containersAlong? ["spec", "template", "spec"] es = cs at hcontainers ⊢
  generalize containersAlong? ["spec", "template", "spec"] fs = ds at hcontainers ⊢
  cases hcontainers with
  | none => exact .ok (.other rfl)
  | some hcontainers =>
      refine .bind (malformedContainer?_paired hcontainers) fun why why' hwhy => ?_
      cases hwhy with
      | none => exact .ok (.deployment hcontainers)
      | some hreasons => exact .ok (.other hreasons)

/-- Children that match are recognized alike, or neither can be. -/
theorem Matches.classify {c d : Value} (h : c.Matches d) :
    Paired Child.Matches c.classify d.classify := by
  have hentries := h.entries?
  rw [Value.classify, Value.classify]
  generalize c.entries? = es at hentries ⊢
  generalize d.entries? = fs at hentries ⊢
  cases hentries with
  | none => exact .ok (.other rfl)
  | @some es fs hmatches =>
      have hkind := hmatches.field "kind"
      simp only
      generalize Value.field es "kind" = v at hkind ⊢
      generalize Value.field fs "kind" = w at hkind ⊢
      cases v with
      | text kind =>
          obtain rfl := reordered_text_left_iff.mp hkind.reordered
          simp only
          split
          next => exact classifyDeployment_paired hmatches
          next =>
            split
            · exact .ok .service
            · exact .ok (.other rfl)
      | _ => cases hkind.reordered <;> exact .ok (.other rfl)

theorem Matches.fullName {c d : Value} (h : c.Matches d) :
    Paired (fun _ _ => True) c.fullName d.fullName := by
  have hentries := h.entries?
  rw [Value.fullName, Value.fullName]
  generalize c.entries? = es at hentries ⊢
  generalize d.entries? = fs at hentries ⊢
  cases hentries with
  | none => exact .ok trivial
  | @some es fs hmatches =>
      have hmetadata := (hmatches.field "metadata").entries?
      refine .bind (hmatches.getD "kind" "?").reordered.shown fun _ _ _ => ?_
      generalize (Value.field es "metadata").entries? = es' at hmetadata ⊢
      generalize (Value.field fs "metadata").entries? = fs' at hmetadata ⊢
      cases hmetadata with
      | none => exact .ok trivial
      | some hinner =>
          exact .bind (hinner.getD "name" "?").reordered.shown fun _ _ _ => .ok trivial

end Value

namespace Service

variable {workload : Workload}

theorem portNumber?_eq {p q : Value} (h : p.Matches q) : portNumber? p = portNumber? q := by
  have hentries := h.entries?
  rw [portNumber?, portNumber?]
  generalize p.entries? = es at hentries ⊢
  generalize q.entries? = fs at hentries ⊢
  cases hentries with
  | none => rfl
  | @some es fs hmatches =>
      have hport := hmatches.field "containerPort"
      simp only
      generalize Value.field es "containerPort" = v at hport ⊢
      generalize Value.field fs "containerPort" = w at hport ⊢
      cases v with
      | int n =>
          cases hport.reordered
          rfl
      | _ => cases hport.reordered <;> rfl

theorem exposedPort_paired {c d p q : Value} (h : p.Matches q) (index : Nat) :
    Paired Eq (exposedPort workload c p index) (exposedPort workload d q index) :=
  Paired.eq_iff.mpr fun n => by
    rw [exposedPort_eq_ok_iff, exposedPort_eq_ok_iff, portNumber?_eq h]

/-- Searches among children that match find one port, or none, or fail both. -/
theorem findPort_paired (key : Value) {cs ds : List Value} (h : List.Forall₂ Value.Matches cs ds)
    (index : Nat) :
    Run.Paired key Eq (findPort workload index cs) (findPort workload index ds) := by
  induction h generalizing index with
  | nil => exact .pure rfl
  | @cons c d cs ds hcd _ ih =>
      refine .bind (.ofExcept hcd.classify) fun recognized recognized' hrecognized => ?_
      cases hrecognized with
      | @deployment containers containers' hcontainers =>
          have hport := Child.firstPort?_rel hcontainers
          simp only
          generalize Child.firstPort? containers = port at hport ⊢
          generalize Child.firstPort? containers' = port' at hport ⊢
          cases hport with
          | none => exact ih (index + 1)
          | some hport =>
              refine .bind (.ofExcept (exposedPort_paired hport index)) fun n n' hn => ?_
              exact .pure (congrArg some hn)
      | service => exact ih (index + 1)
      | @other why why' hreasons =>
          have hname : Paired (fun _ _ => True) (skipped c why) (skipped d why') :=
            .bind hcd.fullName fun _ _ _ => .ok trivial
          rw [Otherness.Matches] at hreasons
          simp only [hreasons]
          split
          next =>
            exact .bind (.ofExcept hname) fun warning warning' _ =>
              .bind (.warn warning warning') fun _ _ _ => ih (index + 1)
          next => exact ih (index + 1)

end Service

end ManifestChain
