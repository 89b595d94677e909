import ManifestChain.Application
import ManifestChain.Proofs.Context
import ManifestChain.Proofs.Payload.Canonical

/-!
# The application around some children

Wrapping keeps number and order of the children: every one becomes a template with the label of the
workload, and the manifest of the template holds the normal form of the child. Rendering an
application that was made of well-formed children always succeeds.
-/

namespace ManifestChain

theorem Value.kindText_of_manifest {child manifest : Value} (h : child.manifest = .ok manifest) :
    child.kindText = match manifest.entries? with
      | some entries =>
        if (field entries "kind").isTruthy then (field entries "kind").shown else .ok ""
      | none => .ok "" := by
  rw [kindText, h]
  rfl

variable {workload : Workload} {ctx ctx' : Context} {labels : Entries}

namespace Template

/-- A template that captures a child: the payload of the child, the name made of its kind, and the
labels. -/
structure Captures (workload : Workload) (labels : Entries) (child : Value) (t : Template) :
    Prop where
  payload : ∃ index, child.payload workload.name index = .ok t.payload
  name : ∃ name, nameOf workload child = .ok name ∧ t.name = .text name
  labels : t.labels = labels

theorem ofChild_ok {index : Nat} {child : Value} {t : Template}
    (hlabels : ctx.labels workload = .ok labels)
    (h : (ofChild workload index child).runIn ctx = (.ok t, ctx')) :
    Captures workload labels child t ∧ ctx' = ctx := by
  rw [ofChild, Run.runIn_ofExcept_bind_eq_ok_iff] at h
  obtain ⟨payload, hpayload, h⟩ := h
  obtain ⟨name, hname, h⟩ := Run.runIn_ofExcept_bind_eq_ok_iff.mp h
  obtain ⟨entries, hentries, h⟩ := Run.runIn_labels_bind_eq_ok_iff.mp h
  rw [hlabels] at hentries
  cases hentries
  cases h
  exact ⟨⟨⟨_, hpayload⟩, ⟨name, hname, rfl⟩, rfl⟩, rfl⟩

/-- The templates of children capture them one by one. -/
theorem ofChildren_ok {index : Nat} {children : List Value} {templates : List Template}
    (hlabels : ctx.labels workload = .ok labels)
    (h : (ofChildren workload index children).runIn ctx = (.ok templates, ctx')) :
    List.Forall₂ (Captures workload labels) children templates ∧ ctx' = ctx := by
  induction children generalizing index templates ctx' with
  | nil =>
      cases h
      exact ⟨.nil, rfl⟩
  | cons child rest ih =>
      rw [ofChildren] at h
      obtain ⟨t, mid, hchild, hafter⟩ := Run.runIn_bind_eq_ok_iff.mp h
      obtain ⟨hcaptures, hmid⟩ := ofChild_ok hlabels hchild
      rw [hmid] at hafter
      obtain ⟨ts, last, hrest, hreturn⟩ := Run.runIn_bind_eq_ok_iff.mp hafter
      obtain ⟨hall, hlast⟩ := ih hrest
      cases hreturn
      exact ⟨.cons hcaptures hall, hlast⟩

/-- The manifest of a template of a child: its name, the labels, and what the child's normal form is
decoded to. -/
def Presents (workload : Workload) (labels : Entries) (child document : Value) : Prop :=
  ∃ name form decoded, nameOf workload child = .ok name ∧ child.normalForm? = some form ∧
    form.Alike decoded ∧ document = .ofEntries
      [("metadata", .ofEntries [("name", .text name), ("labels", .ofEntries labels)]),
        ("spec", .ofEntries [("template", decoded.toValue)])]

theorem Captures.rendered {child : Value} {t : Template} (h : Captures workload labels child t)
    (hchild : child.WellFormed) : ∃ document, t.toValue.rendered? = some (.ok document) ∧
      Presents workload labels child document := by
  obtain ⟨name, hname, htext⟩ := h.name
  obtain ⟨index, hpayload⟩ := h.payload
  obtain ⟨members, hform, hleaves, hbytes⟩ := Value.payload_eq_ok_iff.mp hpayload
  have hread := Value.ofBytes_sorted (hchild.normalForm hform) hleaves hbytes
  -- The payload is read as the sorted form, which is alike the normal form.
  refine ⟨_, ?_, name, _, _, hname, hform, (Json.object members).alike_sorted, rfl⟩
  rw [toValue, Value.rendered?, Value.templateManifest, Value.decode, Value.decodePayload, hread,
    htext, h.labels]
  rfl

/-- Templates that capture well-formed children all render. -/
theorem renderedItems_of_captures {children : List Value} {templates : List Template}
    (h : List.Forall₂ (Captures workload labels) children templates)
    (hchildren : ∀ child ∈ children, child.WellFormed) :
    ∃ documents, Value.renderedItems (templates.map toValue) = .ok documents ∧
      List.Forall₂ (Presents workload labels) children documents := by
  induction h with
  | nil => exact ⟨[], rfl, .nil⟩
  | cons hcaptures _ ih =>
      obtain ⟨document, hrendered, hpresents⟩ :=
        hcaptures.rendered (hchildren _ List.mem_cons_self)
      obtain ⟨documents, hdocuments, hall⟩ :=
        ih fun child hchild => hchildren child (List.mem_cons_of_mem _ hchild)
      refine ⟨document :: documents, ?_, .cons hpresents hall⟩
      rw [List.map_cons, Value.renderedItems, hrendered, hdocuments]
      rfl

end Template

namespace Application

theorem wrap?_of_ne_nil (mark : Mark) {children : List Value} (hne : children ≠ []) :
    wrap? workload (.list mark children) = do
      let templates ← Template.ofChildren workload 0 children
      return some ⟨workload.name, ← Run.labels workload, templates⟩ := by
  rw [wrap?, Value.isTruthy_list mark hne]
  rfl

/-- The application of some children has the name of the workload, selects by its label and holds a
template for each child in order. -/
theorem wrap?_ok {mark : Mark} {children : List Value} {result : Option Application}
    (hne : children ≠ []) (hlabels : ctx.labels workload = .ok labels)
    (h : (wrap? workload (.list mark children)).runIn ctx = (.ok result, ctx')) :
    ∃ templates, result = some ⟨workload.name, labels, templates⟩ ∧
      List.Forall₂ (Template.Captures workload labels) children templates := by
  rw [wrap?_of_ne_nil mark hne] at h
  obtain ⟨templates, mid, htemplates, hafter⟩ := Run.runIn_bind_eq_ok_iff.mp h
  obtain ⟨hall, hmid⟩ := Template.ofChildren_ok hlabels htemplates
  rw [hmid] at hafter
  obtain ⟨entries, hentries, hreturn⟩ := Run.runIn_labels_bind_eq_ok_iff.mp hafter
  rw [hlabels] at hentries
  cases hentries
  cases hreturn
  exact ⟨templates, rfl, hall⟩

/-- An application of well-formed children renders to the manifests of its templates. -/
theorem manifest_of_captures (name : Value) {children : List Value} {templates : List Template}
    (h : List.Forall₂ (Template.Captures workload labels) children templates)
    (hchildren : ∀ child ∈ children, child.WellFormed) :
    ∃ documents, (Application.mk name labels templates).toValue.manifest =
        .ok (Value.applicationManifest name labels documents) ∧
      List.Forall₂ (Template.Presents workload labels) children documents := by
  obtain ⟨documents, hdocuments, hall⟩ := Template.renderedItems_of_captures h hchildren
  refine ⟨documents, ?_, hall⟩
  rw [toValue, Value.manifest, Value.rendered?]
  simp only [hdocuments]
  rfl

end Application

end ManifestChain
