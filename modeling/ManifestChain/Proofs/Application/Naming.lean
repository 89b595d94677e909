import ManifestChain.Proofs.Application.Pointwise
import ManifestChain.Proofs.Payload.Acceptance
import ManifestChain.Proofs.Payload.Portable
import ManifestChain.Proofs.Payload.Showing

/-!
# Names of templates and the kinds in their payloads

A template is named after the kind that the child's manifest has, not after the kind in its payload.
Where the kind counts as true, the two have one text unless it is a timestamp or a tuple, holds a
tuple, a date or a timestamp inside, or holds a mapping whose keys do not ascend; then their texts
are different.
-/

namespace ManifestChain

variable {workload : Workload} {ctx last : Context}

namespace Value

variable {entries : Entries} {members : List (Text × Json)}

theorem get?_toEntries_eq_some_iff (h : (members.map Prod.fst).Nodup) (key : Text) {v : Value} :
    Entries.get? (Json.toEntries members) key = some v ↔ ∃ j, (key, j) ∈ members ∧ v = j.toValue := by
  have hdistinct : Distinct ((Json.toEntries members).map Prod.fst) := by
    simpa [toEntries_eq_map, Function.comp_def] using distinct_texts_iff.mpr h
  rw [get?_eq_some_iff hdistinct, toEntries_eq_map]
  simp [eq_comm]

/-- What a mapping has at a key is a value that is written, and what the decoded mapping has there
is that value read back. -/
theorem exists_field_decoded (hmembers : normalMembers? entries = some members)
    (h : (Json.object members).Portable) (key : Text) :
    ∃ form, (field entries key).normal? = some form ∧ form.Portable ∧
      field (Json.toEntries (Json.sortMembers (members.map (Prod.map id Json.sorted)))) key =
        form.sorted.toValue := by
  obtain ⟨hkeys, hparts⟩ := Json.portable_object_iff.mp h
  have hrelated := normalMembers?_eq_some_iff.mp hmembers
  have hsorted := Json.portable_object_iff.mp
    (Json.sorted_object members ▸ Json.portable_sorted_iff.mpr h)
  have hdecoded {v : Value} := get?_toEntries_eq_some_iff hsorted.1 key (v := v)
  cases hget : entries.get? key with
  | some v =>
      obtain ⟨m, hm, hkey, hvalue⟩ := Json.exists_mem_of_forall₂ hrelated (mem_of_get? hget)
      cases hkey
      have hmem := (Json.sortMembers_perm _).mem_iff.mpr
        (List.mem_map_of_mem (f := Prod.map id Json.sorted) hm)
      rw [field, hget, field, hdecoded.mpr ⟨_, hmem, rfl⟩]
      exact ⟨m.2, hvalue, (hparts m hm).2, rfl⟩
  | none =>
      cases hfound : Entries.get?
        (Json.toEntries (Json.sortMembers (members.map (Prod.map id Json.sorted)))) key with
      | none =>
          rw [field, hget, field, hfound]
          exact ⟨.null, rfl, ⟨trivial, trivial, trivial⟩, rfl⟩
      | some w =>
          -- A key of the decoded mapping is one of the manifest's.
          obtain ⟨j, hj, -⟩ := hdecoded.mp hfound
          obtain ⟨m, hm, heq⟩ := List.mem_map.mp ((Json.sortMembers_perm _).mem_iff.mp hj)
          obtain ⟨⟨k, v⟩, he, hkey, -⟩ := Json.exists_mem_of_forall₂ hrelated.flip hm
          cases heq
          cases hkey
          have hentries : Distinct (entries.map Prod.fst) := by
            rwa [map_fst_of_normalMembers? hmembers, distinct_texts_iff]
          cases hget.symm.trans ((get?_eq_some_iff hentries).mpr he)

/-- A child that has nothing but a kind has a payload if the kind can be written. -/
theorem hasPayload_of_writable {kind : Value} (hkind : kind.Writable) (workload : Workload)
    (index : Nat) : (ofEntries [("kind", kind)]).HasPayload workload index := by
  rw [HasPayload, payload_of_rendered? rfl, exists_manifestPayload_iff]
  refine ⟨⟨none, _, rfl⟩, writable_map_iff.mpr fun e he => ?_⟩
  cases List.mem_singleton.mp he
  exact ⟨⟨"kind", rfl, rfl⟩, hkind⟩

/-- The kind under which a mapping is named has the same text once it is read back: it is missing,
counts as false, or is shown alike. -/
def KindAlike (entries : Entries) : Prop :=
  (field entries "kind").isTruthy = false ∨ (field entries "kind").ShownAlike

/-- A child that has a payload has a kind, and so has the decoded payload. Their texts are equal
exactly if the kind is alike, also in lower case where the keys inside the kind ascend. -/
theorem exists_kinds_of_payload {child name : Value} {index : Option Int} {bytes : List UInt8}
    (hchild : child.WellFormed) (h : child.payload name index = .ok bytes) :
    ∃ mark entries kind document found, child.manifest = .ok (map mark entries) ∧
      child.kindText = .ok kind ∧ decodePayload bytes = .ok document ∧
      document.kindText = .ok found ∧ (kind = found ↔ KindAlike entries) ∧
      ((field entries "kind").Ordered → (kind.lower = found.lower ↔ KindAlike entries)) := by
  obtain ⟨members, hform, hportable, hdecoded⟩ := portable_of_payload hchild h
  obtain ⟨mark, entries, hmanifest, hmembers⟩ := exists_entries_of_normalForm? hform
  obtain ⟨form, hkind, hwritable, hfield⟩ := exists_field_decoded hmembers hportable "kind"
  obtain ⟨s, hs⟩ := exists_shown_of_normal? hkind hwritable.leaves
  obtain ⟨t, ht⟩ := exists_shown_of_normal? (normal?_toValue form.sorted)
    (Json.portable_sorted_iff.mpr hwritable).leaves
  have hdocument : (Json.object members).sorted.toValue.manifest = .ok (map none
      (Json.toEntries (Json.sortMembers (members.map (Prod.map id Json.sorted))))) := by
    rw [Json.sorted_object]
    rfl
  refine ⟨mark, entries, _, _, _, hmanifest,
    (kindText_eq_ok_iff hmanifest).mpr (kindShown_of_shown hs), hdecoded,
    (kindText_eq_ok_iff hdocument).mpr (kindShown_of_shown (hfield ▸ ht)), ?_⟩
  rw [hfield, isTruthy_toValue_sorted hkind, KindAlike]
  cases hcount : (field entries "kind").isTruthy with
  | false => exact ⟨by simp, by simp⟩
  | true =>
      simp only [if_true, Bool.true_eq_false, false_or]
      exact ⟨shown_eq_iff hkind hwritable.keys hs ht,
        fun hordered => lower_shown_eq_iff hkind hwritable.keys hordered hs ht⟩

end Value

namespace Template

/-- A template is named after the kind of a child, which is compared with the kind found in its own
payload: the texts are equal exactly if the kind is alike, and the name would be the same exactly
then if the keys inside the kind ascend. -/
def NamedAfter (owner : Text) (child : Value) (t : Template) : Prop :=
  ∃ mark entries kind document found, child.manifest = .ok (.map mark entries) ∧
    child.kindText = .ok kind ∧ t.name = .text (owner ++ "-" ++ kind.lower) ∧
    Value.decodePayload t.payload = .ok document ∧ document.kindText = .ok found ∧
    (kind = found ↔ Value.KindAlike entries) ∧
    ((Value.field entries "kind").Ordered →
      (t.name = .text (owner ++ "-" ++ found.lower) ↔ Value.KindAlike entries))

theorem Captures.namedAfter {owner : Text} {labels : Entries} {child : Value} {t : Template}
    (h : Captures workload labels child t) (hname : workload.name = .text owner)
    (hchild : child.WellFormed) : NamedAfter owner child t := by
  obtain ⟨index, hpayload⟩ := h.payload
  obtain ⟨name, hnameOf, htext⟩ := h.name
  obtain ⟨mark, entries, kind, document, found, hmanifest, hkind, hdecoded, hfound, halike, hlower⟩ :=
    Value.exists_kinds_of_payload hchild hpayload
  have hnamed : t.name = .text (owner ++ "-" ++ kind.lower) := by
    rw [nameOf, hname, hkind] at hnameOf
    cases hnameOf
    exact htext
  refine ⟨mark, entries, kind, document, found, hmanifest, hkind, hnamed, hdecoded, hfound, halike,
    fun hordered => ?_⟩
  rw [← hlower hordered, hnamed, Value.text.injEq, List.append_cancel_left_eq]

end Template

namespace Application

/-- The labels of a workload that has an application were made without a fault. -/
theorem exists_labels_of_wrap? {mark : Mark} {children : List Value} {a : Application}
    (h : (wrap? workload (.list mark children)).runIn ctx = (.ok (some a), last)) :
    children ≠ [] ∧ ∃ labels, ctx.labels workload = .ok labels := by
  cases children with
  | nil => cases h
  | cons child rest =>
      refine ⟨List.cons_ne_nil _ _, ?_⟩
      obtain ⟨templates, _, htemplates, -⟩ := Run.runIn_bind_eq_ok_iff.mp h
      obtain ⟨t, _, hfirst, -⟩ := Run.runIn_bind_eq_ok_iff.mp htemplates
      obtain ⟨_, -, hfirst⟩ := Run.runIn_ofExcept_bind_eq_ok_iff.mp hfirst
      obtain ⟨_, -, hfirst⟩ := Run.runIn_ofExcept_bind_eq_ok_iff.mp hfirst
      obtain ⟨labels, hlabels, -⟩ := Run.runIn_labels_bind_eq_ok_iff.mp hfirst
      exact ⟨labels, hlabels⟩

/-- Whenever children are wrapped in an application, every template is named after the kind of its
child. The kind in its payload has the same text exactly if the child's kind is missing, counts as
false, is a date, or holds neither tuples, dates and timestamps nor mappings with keys out of order.
For another kind with the keys in order the name is not that of the kind in the payload. -/
theorem wrap?_namedAfter {owner : Text} {mark : Mark} {children : List Value} {a : Application}
    (hname : workload.name = .text owner) (hchildren : ∀ child ∈ children, child.WellFormed)
    (h : (wrap? workload (.list mark children)).runIn ctx = (.ok (some a), last)) :
    List.Forall₂ (Template.NamedAfter owner) children a.templates := by
  obtain ⟨hne, labels, hlabels⟩ := exists_labels_of_wrap? h
  obtain ⟨templates, heq, hcaptures⟩ := wrap?_ok hne hlabels h
  cases heq
  exact Json.forall₂_imp_of_mem hcaptures fun child hchild t hcapture =>
    hcapture.namedAfter hname (hchildren child hchild)

/-- The name of a deployment's template is that of the kind in its payload. A kind that is a
timestamp is in the payload in universal time, so the name of its template is another. -/
theorem wrap?_namedAfter_timestamp :
    let workload : Workload := ⟨"w", "", "u"⟩
    let deployment : Value := .ofEntries [("kind", "Deployment")]
    let moment : Timestamp := ⟨⟨2020, 1, 2, by decide, by decide, by decide⟩,
      ⟨3, 4, 5, 0, by decide, by decide, by decide, by decide⟩, none⟩
    let stamped : Value := .ofEntries [("kind", .timestamp none moment)]
    ∃ t u, (wrap? workload (.list none [deployment, stamped])).runIn .initial =
        (.ok (some ⟨"w", [(.text defaultLabelKey, "u")], [t, u]⟩), .initial) ∧
      (∃ document found, Value.decodePayload t.payload = .ok document ∧
        document.kindText = .ok found ∧ t.name = .text ("w" ++ "-" ++ found.lower)) ∧
      ∃ document found, Value.decodePayload u.payload = .ok document ∧
        document.kindText = .ok found ∧ u.name ≠ .text ("w" ++ "-" ++ found.lower) := by
  intro workload deployment moment stamped
  have hchildren : ∀ child ∈ [deployment, stamped], child.WellFormed := by
    simp [deployment, stamped, Value.ofEntries, Value.WellFormed, Value.EntriesWellFormed,
      Value.Distinct]
  have hpayloads : ∀ (i : Nat) (child : Value), [deployment, stamped][i]? = some child →
      child.HasPayload workload i := by
    rintro (_ | _ | i) child hchild
    · cases hchild
      exact Value.hasPayload_of_writable ⟨.text "Deployment", rfl, trivial, rfl⟩ workload 0
    · cases hchild
      exact Value.hasPayload_of_writable (Value.writable_timestamp_iff.mpr (.inl rfl)) workload 1
    · simp at hchild
  have hname : workload.name = .text "w" := rfl
  have hlabels : Context.initial.labels workload = .ok [(.text defaultLabelKey, "u")] := rfl
  obtain ⟨templates, hrun, -⟩ :=
    exists_wrap?_of_payloads hname hlabels (List.cons_ne_nil deployment [stamped]) none hpayloads
  obtain _ | ⟨ht, _ | ⟨hu, ⟨⟩⟩⟩ := wrap?_namedAfter rfl hchildren hrun
  refine ⟨_, _, hrun, ?_, ?_⟩
  · obtain ⟨_, _, kind, document, found, hmanifest, -, hname, hdecoded, hfound, halike, -⟩ := ht
    change Except.ok (Value.map none [("kind", "Deployment")]) = _ at hmanifest
    cases hmanifest
    refine ⟨document, found, hdecoded, hfound, ?_⟩
    rw [hname, halike.mpr (.inr (.inr (Value.readsAlike_text _)))]
  · obtain ⟨_, _, _, document, found, hmanifest, -, -, hdecoded, hfound, -, hlower⟩ := hu
    change Except.ok (Value.map none [("kind", .timestamp none moment)]) = _ at hmanifest
    cases hmanifest
    refine ⟨document, found, hdecoded, hfound, fun heq => ?_⟩
    rcases (hlower fun _ _ hpart => by cases hpart).mp heq with hfalse | ⟨_, _, hdate⟩ | halike
    · cases hfalse
    · cases hdate
    · exact Value.not_readsAlike id halike

end Application

end ManifestChain
