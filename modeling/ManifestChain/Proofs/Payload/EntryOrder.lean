import ManifestChain.Proofs.Context.Pairing
import ManifestChain.Proofs.Payload.Canonical
import ManifestChain.Proofs.Value.Display
import ManifestChain.Proofs.Value.EntryOrder

/-!
# Payloads and the order of entries

Children that are the same up to the order of entries have alike normal forms, if any, and so one
payload. Values that are the same are shown alike in one respect only: showing fails for both or for
none.
-/

namespace ManifestChain

namespace Value

/-! ## Showing -/

theorem exists_mem_iff_of_forall₂ {α β : Type} {r : α → β → Prop} {p : α → Prop} {q : β → Prop}
    {xs : List α} {ys : List β} (h : List.Forall₂ r xs ys)
    (hpq : ∀ x ∈ xs, ∀ y, r x y → (p x ↔ q y)) : (∃ x ∈ xs, p x) ↔ ∃ y ∈ ys, q y := by
  induction h with
  | nil => simp
  | cons hxy _ ih =>
      rw [List.exists_mem_cons_iff, List.exists_mem_cons_iff, hpq _ List.mem_cons_self _ hxy,
        ih fun x hx => hpq x (List.mem_cons_of_mem _ hx)]

theorem mem_shownIntsOfEntries_of_reordered {n : Int} {es fs : Entries} (h : es.Reordered fs)
    (ih : ∀ e ∈ es, (∀ {w}, e.1.Reordered w → (n ∈ e.1.shownInts ↔ n ∈ w.shownInts)) ∧
      ∀ {w}, e.2.Reordered w → (n ∈ e.2.shownInts ↔ n ∈ w.shownInts)) :
    n ∈ shownIntsOfEntries es ↔ n ∈ shownIntsOfEntries fs := by
  obtain ⟨ordered, order, entries⟩ := h
  rw [mem_shownIntsOfEntries_iff, mem_shownIntsOfEntries_iff,
    exists_mem_iff_of_forall₂ entries fun e he f hef =>
      or_congr ((ih e he).1 hef.1) ((ih e he).2 hef.2)]
  simp only [order.mem_iff]

/-- The order of entries does not matter for what integers are shown. -/
theorem Reordered.mem_shownInts_iff {v w : Value} (h : v.Reordered w) {n : Int} :
    n ∈ v.shownInts ↔ n ∈ w.shownInts := by
  induction v generalizing w with
  | list mark xs ih =>
      obtain ⟨_, ys, rfl, items⟩ := reordered_list_iff.mp h
      rw [shownInts, shownInts, mem_shownIntsOfItems_iff, mem_shownIntsOfItems_iff]
      exact exists_mem_iff_of_forall₂ items fun x hx y => ih x hx
  | tuple xs ih =>
      obtain ⟨ys, rfl, items⟩ := reordered_tuple_iff.mp h
      rw [shownInts, shownInts, mem_shownIntsOfItems_iff, mem_shownIntsOfItems_iff]
      exact exists_mem_iff_of_forall₂ items fun x hx y => ih x hx
  | set mark xs ih =>
      obtain ⟨_, ys, ordered, rfl, order, items⟩ := reordered_set_iff.mp h
      rw [shownInts, shownInts, mem_shownIntsOfItems_iff, mem_shownIntsOfItems_iff,
        exists_mem_iff_of_forall₂ items fun x hx y => ih x hx]
      simp only [order.mem_iff]
  | map mark es ih =>
      obtain ⟨_, fs, rfl, hes⟩ := reordered_map_iff.mp h
      exact mem_shownIntsOfEntries_of_reordered hes ih
  | view es ih =>
      obtain ⟨fs, rfl, hes⟩ := reordered_view_iff.mp h
      exact mem_shownIntsOfEntries_of_reordered hes ih
  | _ => cases h <;> rfl

theorem Reordered.quoted {v w : Value} (h : v.Reordered w) :
    Fault.Paired (fun _ _ => True) v.quoted w.quoted := by
  have herror (e : Fault) : v.quoted = .error e ↔ w.quoted = .error e := by
    simp only [quoted_eq_error_iff, ShowsLongInt, h.mem_shownInts_iff]
  cases hv : v.quoted with
  | error e =>
      rw [(herror e).mp hv]
      exact .error e e
  | ok t =>
      cases hw : w.quoted with
      | error e =>
          rw [(herror e).mpr hw] at hv
          cases hv
      | ok u => exact .ok trivial

theorem Reordered.shown {v w : Value} (h : v.Reordered w) :
    Fault.Paired (fun _ _ => True) v.shown w.shown := by
  have hquoted := h.quoted
  cases h with
  | view order keys values => exact (Reordered.map none none order keys values).quoted
  | same => exact (Fault.Paired.refl _).imp fun _ _ _ => trivial
  | date => exact .ok trivial
  | timestamp => exact .ok trivial
  | _ => exact hquoted

/-! ## Normal forms -/

theorem rel_alike_refl (form : Option Json) : Option.Rel Json.Alike form form := by
  cases form with
  | none => exact .none
  | some j => exact .some (Json.alike_of_sorted_eq rfl)

theorem normalItems?_rel {xs ys : List Value}
    (h : List.Forall₂ (fun x y => Option.Rel Json.Alike x.normal? y.normal?) xs ys) :
    Option.Rel (List.Forall₂ Json.Alike) (normalItems? xs) (normalItems? ys) := by
  induction h with
  | nil => exact .some .nil
  | @cons x y xs ys hxy _ ih =>
      rw [normalItems?, normalItems?]
      generalize x.normal? = form at hxy ⊢
      generalize y.normal? = form' at hxy ⊢
      generalize normalItems? xs = forms at ih ⊢
      generalize normalItems? ys = forms' at ih ⊢
      cases hxy with
      | none => exact .none
      | some halike =>
          cases ih with
          | none => exact .none
          | some hforms => exact .some (.cons halike hforms)

/-- Entries of alike values under the same texts have alike members. -/
theorem normalMembers?_rel {es fs : Entries} (h : List.Forall₂ (fun e f =>
      e.1.Reordered f.1 ∧ Option.Rel Json.Alike e.2.normal? f.2.normal?) es fs) :
    Option.Rel (fun ms ns => ms.map Prod.fst = ns.map Prod.fst ∧
        List.Forall₂ Json.Alike (ms.map Prod.snd) (ns.map Prod.snd))
      (normalMembers? es) (normalMembers? fs) := by
  induction h with
  | nil => exact .some ⟨rfl, .nil⟩
  | @cons e f es fs hef _ ih =>
      obtain ⟨k, v⟩ := e
      obtain ⟨l, w⟩ := f
      obtain ⟨hkey, hvalue⟩ := hef
      simp only at hkey hvalue
      cases k with
      | text k =>
          obtain rfl := reordered_text_left_iff.mp hkey
          rw [normalMembers?, normalMembers?]
          generalize v.normal? = form at hvalue ⊢
          generalize w.normal? = form' at hvalue ⊢
          generalize normalMembers? es = members at ih ⊢
          generalize normalMembers? fs = members' at ih ⊢
          cases hvalue with
          | none => exact .none
          | some halike =>
              cases ih with
              | none => exact .none
              | some hmembers =>
                  exact .some ⟨congrArg (k :: ·) hmembers.1, .cons halike hmembers.2⟩
      | _ => cases hkey <;> exact .none

theorem normalMembers?_perm {es fs : Entries} (h : es.Perm fs) :
    Option.Rel List.Perm (normalMembers? es) (normalMembers? fs) := by
  cases hms : normalMembers? es with
  | some ms =>
      obtain ⟨ns, hns, hperm⟩ := List.perm_comp_forall₂ h.symm (normalMembers?_eq_some_iff.mp hms)
      rw [normalMembers?_eq_some_iff.mpr hns]
      exact .some hperm.symm
  | none =>
      cases hns : normalMembers? fs with
      | none => exact .none
      | some ns =>
          obtain ⟨ms, hms', -⟩ := List.perm_comp_forall₂ h (normalMembers?_eq_some_iff.mp hns)
          rw [normalMembers?_eq_some_iff.mpr hms'] at hms
          cases hms

theorem normal?_map_rel {mark mark' : Mark} {es fs : Entries} (h : es.Reordered fs)
    (ih : ∀ e ∈ es, ∀ {w}, e.2.Reordered w → Option.Rel Json.Alike e.2.normal? w.normal?) :
    Option.Rel Json.Alike (map mark es).normal? (map mark' fs).normal? := by
  obtain ⟨ordered, order, entries⟩ := h
  have hmembers := normalMembers?_rel
    (Json.forall₂_imp_of_mem entries fun e he f hef => ⟨hef.1, ih e he hef.2⟩)
  have hordered := normalMembers?_perm order
  rw [normal?, normal?]
  generalize normalMembers? es = members at hmembers ⊢
  generalize normalMembers? ordered = between at hmembers hordered
  generalize normalMembers? fs = members' at hordered ⊢
  cases hmembers with
  | none =>
      cases hordered
      exact .none
  | some hrelated =>
      cases hordered with
      | some hperm => exact .some (.object hperm hrelated.1 hrelated.2)

/-- Values that are the same up to the order of entries have alike normal forms, or none. -/
theorem Reordered.normal? {v w : Value} (h : v.Reordered w) :
    Option.Rel Json.Alike v.normal? w.normal? := by
  have harray {xs ys : List Value}
      (items : List.Forall₂ (fun x y => Option.Rel Json.Alike x.normal? y.normal?) xs ys) :
      Option.Rel Json.Alike ((normalItems? xs).map .array) ((normalItems? ys).map .array) := by
    have hforms := normalItems?_rel items
    generalize normalItems? xs = forms at hforms ⊢
    generalize normalItems? ys = forms' at hforms ⊢
    cases hforms with
    | none => exact .none
    | some hforms => exact .some (.array hforms)
  induction v generalizing w with
  | list mark xs ih =>
      obtain ⟨_, ys, rfl, items⟩ := reordered_list_iff.mp h
      exact harray (Json.forall₂_imp_of_mem items fun x hx y => ih x hx)
  | tuple xs ih =>
      obtain ⟨ys, rfl, items⟩ := reordered_tuple_iff.mp h
      exact harray (Json.forall₂_imp_of_mem items fun x hx y => ih x hx)
  | map mark es ih =>
      obtain ⟨_, fs, rfl, hes⟩ := reordered_map_iff.mp h
      exact normal?_map_rel hes fun e he => (ih e he).2
  | view es ih =>
      obtain ⟨fs, rfl, hes⟩ := reordered_view_iff.mp h
      exact .none
  | _ => cases h <;> exact rel_alike_refl _

/-! ## Children -/

/-- A child that renders is the same as itself only; others are their own manifests. -/
theorem Reordered.eq_or_manifest {c d : Value} (h : c.Reordered d) :
    c = d ∨ c.manifest = .ok c ∧ d.manifest = .ok d := by
  cases h with
  | same => exact .inl rfl
  | _ => exact .inr ⟨rfl, rfl⟩

theorem Reordered.normalForm? {c d : Value} (h : c.Reordered d) :
    Option.Rel Json.Alike c.normalForm? d.normalForm? := by
  rcases h.eq_or_manifest with rfl | ⟨hc, hd⟩
  · exact rel_alike_refl _
  · rw [Value.normalForm?, Value.normalForm?, hc, hd]
    exact h.normal?

/-- Well-formed children that are the same up to the order of entries have one payload, or none. -/
theorem Matches.payload {c d : Value} (h : c.Matches d) (workload : Value) (index : Option Int) :
    Fault.Paired Eq (c.payload workload index) (d.payload workload index) := by
  have hforms := h.reordered.normalForm?
  refine Fault.Paired.eq_iff.mpr fun bytes => ⟨fun hbytes => ?_, fun hbytes => ?_⟩
  · obtain ⟨members, hform, -⟩ := payload_eq_ok_iff.mp hbytes
    obtain ⟨form, hform', halike⟩ := exists_of_rel hforms hform
    exact payload_eq_ok_of_sameForm h.left ⟨_, _, hform, hform', halike⟩ hbytes
  · obtain ⟨members, hform, -⟩ := payload_eq_ok_iff.mp hbytes
    rw [hform] at hforms
    cases hc : c.normalForm? with
    | none =>
        rw [hc] at hforms
        cases hforms
    | some form =>
        rw [hc] at hforms
        cases hforms with
        | some halike =>
            have hsame : c.SameForm d := ⟨_, _, hc, hform, halike⟩
            exact payload_eq_ok_of_sameForm h.right (hsame.symm h.left) hbytes

end Value

end ManifestChain
