import ManifestChain.Proofs.Application.Kind
import ManifestChain.Proofs.Payload.Portable
import ManifestChain.Proofs.Value.Encoding

/-!
# Applications inside applications

The manifest of an application whose names have encodings is a document that can be written, so the
application is itself a child that can be wrapped. Nothing is lost at any depth: as many steps into
the outermost manifest as there are applications around the first one lead to the manifest of that
one.
-/

namespace ManifestChain

namespace Value

variable {child : Value} {members : List (Text × Json)} {entries : Entries}

/-- A text at a key is a text of the document. -/
theorem isEncodable_of_field (hmembers : normalMembers? entries = some members)
    (htexts : (Json.object members).Every Json.Encodable) {key t : Text}
    (h : field entries key = text t) : t.isEncodable = true := by
  obtain ⟨form, hform, hmember⟩ := exists_normal?_field hmembers key
  rw [h] at hform
  cases hform
  rcases hmember with heq | hmember
  · cases heq
  · exact (Json.every_object_iff.mp htexts).2 _ hmember

/-- The kind of a child that has a payload has an encoding. -/
theorem isEncodable_kindText {kind : Text} (hform : child.normalForm? = some (.object members))
    (htexts : (Json.object members).Every Json.Encodable) (h : child.kindText = .ok kind) :
    kind.isEncodable = true := by
  obtain ⟨mark, entries, hmanifest, hmembers⟩ := exists_entries_of_normalForm? hform
  have hshown := (kindText_eq_ok_iff hmanifest).mp h
  unfold KindShown at hshown
  split at hshown
  next => exact isEncodable_shown (fun t ht => isEncodable_of_field hmembers htexts ht) hshown
  next =>
    rw [hshown]
    rfl

end Value

variable {name uid key : Text}

/-! ## The documents of templates and applications -/

namespace Template

/-- The document of a template around that of its child. -/
def document (name key uid : Text) (child : Json) : Json :=
  .object
    [("metadata", .object [("name", .text name), ("labels", .object [(key, .text uid)])]),
      ("spec", .object [("template", child)])]

theorem portable_document {child : Json} (hname : name.isEncodable = true)
    (hkey : key.isEncodable = true) (huid : uid.isEncodable = true) (hchild : child.Portable) :
    (document name key uid child).Portable := by
  simp [document, Json.portable_object_iff, Json.portable_text_iff, Text.ofString, Text.ofChars,
    hname, hkey, huid, hchild]

end Template

namespace Application

/-- The document of an application around those of its templates. -/
def document (name key uid : Text) (templates : List Json) : Json :=
  .object
    [("apiVersion", .text applicationVersion),
      ("kind", .text applicationKind),
      ("metadata", .object [("name", .text name)]),
      ("spec", .object
        [("resourceSelector", .object [("matchLabels", .object [(key, .text uid)])]),
          ("resourceTemplates", .array templates)])]

theorem toValue_document (name key uid : Text) (templates : List Json) :
    (document name key uid templates).toValue = Value.applicationManifest (.text name)
      [(.text key, .text uid)] (templates.map Json.toValue) := by
  rw [← Value.toValues_eq_map]
  rfl

theorem portable_document {templates : List Json} (hname : name.isEncodable = true)
    (hkey : key.isEncodable = true) (huid : uid.isEncodable = true)
    (htemplates : ∀ t ∈ templates, t.Portable) :
    (document name key uid templates).Portable := by
  have hversion : applicationVersion.isEncodable = true := by rfl
  have hkind : applicationKind.isEncodable = true := by rfl
  simpa [document, Json.portable_object_iff, Json.portable_array_iff, Json.portable_text_iff,
    Text.ofString, Text.ofChars, hname, hkey, huid, hversion, hkind] using htemplates

/-- The manifest of the application is a document that can be written. -/
structure Documented (a : Application) (name key uid : Text) (templates : List Json) : Prop where
  manifest : a.toValue.manifest = .ok (document name key uid templates).toValue
  portable : (document name key uid templates).Portable

end Application

/-! ## Layers -/

/-- A workload and a context to wrap in; its name, its identity and the key of the label are texts
with an encoding. -/
structure Layer where
  name : Text
  uid : Text
  key : Text
  nameSpace : Value
  warnings : List Text
  deadline : Value
  name_encodable : name.isEncodable = true
  uid_encodable : uid.isEncodable = true
  key_encodable : key.isEncodable = true

namespace Layer

variable (l : Layer)

def workload : Workload := ⟨.text l.name, l.nameSpace, .text l.uid⟩

def context : Context := ⟨.text l.key, l.warnings, l.deadline⟩

def labels : Entries := [(.text l.key, .text l.uid)]

theorem context_labels : l.context.labels l.workload = .ok l.labels := rfl

variable {l}

/-- A template of a layer that captures a well-formed child has a document. -/
theorem documented_of_captures {child : Value} {t : Template}
    (h : Template.Captures l.workload l.labels child t) (hchild : child.WellFormed) :
    ∃ j : Json, t.toValue.rendered? = some (.ok j.toValue) ∧ j.Portable := by
  obtain ⟨name, hname, htext⟩ := h.name
  obtain ⟨index, hpayload⟩ := h.payload
  obtain ⟨members, hform, hportable, hdecode⟩ := Value.portable_of_payload hchild hpayload
  have hencodable : name.isEncodable = true := by
    obtain ⟨owner, howner, hname⟩ := Fault.bind_eq_ok_iff.mp hname
    obtain ⟨kind, hkind, hname⟩ := Fault.bind_eq_ok_iff.mp hname
    cases howner
    cases hname
    have hlower := Value.isEncodable_kindText hform hportable.texts hkind
    rw [← Text.isEncodable_lower] at hlower
    simp [hlower, l.name_encodable]
  refine ⟨Template.document name l.key l.uid (Json.object members).sorted, ?_,
    Template.portable_document hencodable l.key_encodable l.uid_encodable
      (Json.portable_sorted_iff.mpr hportable)⟩
  rw [Template.toValue, Value.rendered?, Value.templateManifest, Value.decode, hdecode, htext,
    h.labels]
  rfl

theorem documentedItems_of_captures {children : List Value} {templates : List Template}
    (h : List.Forall₂ (Template.Captures l.workload l.labels) children templates)
    (hchildren : ∀ child ∈ children, child.WellFormed) : ∃ documents : List Json,
      Value.renderedItems (templates.map Template.toValue) = .ok (documents.map Json.toValue) ∧
        ∀ j ∈ documents, j.Portable := by
  induction h with
  | nil => exact ⟨[], rfl, by simp⟩
  | cons hcapture _ ih =>
      obtain ⟨hchild, hrest⟩ := List.forall_mem_cons.mp hchildren
      obtain ⟨j, hj, hportable⟩ := documented_of_captures hcapture hchild
      obtain ⟨js, hjs, hall⟩ := ih hrest
      refine ⟨j :: js, ?_, List.forall_mem_cons.mpr ⟨hportable, hall⟩⟩
      rw [List.map_cons, Value.renderedItems, hj, hjs]
      rfl

/-- An application that a layer makes of well-formed children has a document. -/
theorem documented_of_wrap? {mark : Mark} {children : List Value} {a : Application}
    {last : Context} (hchildren : ∀ child ∈ children, child.WellFormed)
    (h : (Application.wrap? l.workload (.list mark children)).runIn l.context =
      (.ok (some a), last)) : ∃ templates, a.Documented l.name l.key l.uid templates := by
  have hne : children ≠ [] := by
    rintro rfl
    cases h
  obtain ⟨templates, heq, hcaptures⟩ := Application.wrap?_ok hne l.context_labels h
  cases heq
  obtain ⟨documents, hdocuments, hportable⟩ := documentedItems_of_captures hcaptures hchildren
  refine ⟨documents, ?_, Application.portable_document l.name_encodable l.key_encodable
    l.uid_encodable hportable⟩
  rw [Application.toValue, Value.manifest, Value.rendered?, hdocuments,
    Application.toValue_document]
  rfl

/-- A layer makes an application of one child if the child has a payload and a name. -/
theorem wrap?_singleton (l : Layer) {child : Value} {payload : List UInt8} {name : Text}
    (hpayload : child.payload l.workload.name (some 0) = .ok payload)
    (hname : Template.nameOf l.workload child = .ok name) :
    (Application.wrap? l.workload (.ofList [child])).runIn l.context =
      (.ok (some ⟨.text l.name, l.labels, [⟨.text name, l.labels, payload⟩]⟩), l.context) := by
  have hchild : (Template.ofChild l.workload 0 child).runIn l.context =
      (.ok ⟨.text name, l.labels, payload⟩, l.context) := by
    apply Run.runIn_ofExcept_bind_eq_ok_iff.mpr
    refine ⟨payload, hpayload, Run.runIn_ofExcept_bind_eq_ok_iff.mpr ⟨name, hname, ?_⟩⟩
    exact Run.runIn_labels_bind_eq_ok_iff.mpr ⟨l.labels, l.context_labels, rfl⟩
  have hchildren : (Template.ofChildren l.workload 0 [child]).runIn l.context =
      (.ok [⟨.text name, l.labels, payload⟩], l.context) :=
    Run.runIn_bind_eq_ok_iff.mpr ⟨_, _, hchild, rfl⟩
  rw [Value.ofList, Application.wrap?_of_ne_nil none (List.cons_ne_nil _ _)]
  apply Run.runIn_bind_eq_ok_iff.mpr
  refine ⟨_, _, hchildren, ?_⟩
  exact Run.runIn_labels_bind_eq_ok_iff.mpr ⟨l.labels, l.context_labels, rfl⟩

/-- The name of the template that a layer puts an application in. -/
def templateName (l : Layer) : Text := l.name ++ "-kubernetesapplication"

theorem nameOf_documented (l : Layer) {a : Application} {name key uid : Text}
    {templates : List Json} (h : a.Documented name key uid templates) :
    Template.nameOf l.workload a.toValue = .ok l.templateName := by
  have hkind : a.toValue.kindText = .ok applicationKind := by
    rw [Value.kindText, h.manifest]
    rfl
  have hlower : applicationKind.lower = "kubernetesapplication" := by decide
  rw [Template.nameOf, hkind]
  change Except.ok (l.name ++ "-" ++ applicationKind.lower) = _
  rw [hlower, List.append_assoc]
  rfl

theorem isEncodable_templateName (l : Layer) : l.templateName.isEncodable = true := by
  simp [templateName, l.name_encodable]

/-- The application that a layer makes of another one holds that one's document in order. -/
theorem wrap?_documented (l : Layer) {a : Application} {name key uid : Text}
    {templates : List Json} (h : a.Documented name key uid templates) :
    ∃ b t, (Application.wrap? l.workload (.ofList [a.toValue])).runIn l.context =
        (.ok (some b), l.context) ∧
      b.templates = [t] ∧ t.name = .text l.templateName ∧
      Value.decodePayload t.payload =
        .ok (Application.document name key uid templates).sorted.toValue ∧
      b.Documented l.name l.key l.uid [Template.document l.templateName l.key l.uid
        (Application.document name key uid templates).sorted] := by
  have hform : a.toValue.normalForm? = some (Application.document name key uid templates) := by
    rw [Value.normalForm?, h.manifest]
    exact Value.normal?_toValue _
  obtain ⟨payload, hpayload, hdecode⟩ : ∃ payload,
      a.toValue.payload l.workload.name (some 0) = .ok payload ∧ Value.decodePayload payload =
        .ok (Application.document name key uid templates).sorted.toValue :=
    Value.exists_payload_of_portable hform h.portable _ _
  refine ⟨_, _, l.wrap?_singleton hpayload (l.nameOf_documented h), rfl, rfl, hdecode, ?_, ?_⟩
  · rw [Application.toValue, Value.manifest, Value.rendered?, Application.toValue_document]
    simp only [List.map_cons, List.map_nil, Value.renderedItems, Template.toValue,
      Value.rendered?, Value.templateManifest, Value.decode]
    rw [hdecode]
    rfl
  · refine Application.portable_document l.name_encodable l.key_encodable l.uid_encodable ?_
    rw [List.forall_mem_singleton]
    exact Template.portable_document l.isEncodable_templateName l.key_encodable l.uid_encodable
      (Json.portable_sorted_iff.mpr h.portable)

end Layer

/-! ## Steps into a manifest -/

namespace Value

/-- The document under `spec.template` of the first template in the manifest of an application. -/
def enclosed (manifest : Value) : Except Fault Value := do
  let spec ← manifest.partAt "spec"
  let templates ← spec.partAt "resourceTemplates"
  let first ← templates.partAt (.int 0)
  let inner ← first.partAt "spec"
  inner.partAt "template"

/-- What a number of such steps leads to. -/
def unwrapped : Nat → Value → Except Fault Value
  | 0, manifest => .ok manifest
  | depth + 1, manifest => do (← unwrapped depth manifest).enclosed

/-- A manifest that is that of an application with one template, up to the order of entries,
encloses the document of the child. -/
theorem Matches.enclosed {name uid key template : Text} {child : Json} {manifest : Value}
    (h : (Application.document name key uid
      [Template.document template key uid child]).toValue.Matches manifest) :
    ∃ found, manifest.enclosed = .ok found ∧ child.toValue.Matches found := by
  obtain ⟨spec, hspec, h⟩ := h.partAt_text "spec" rfl
  obtain ⟨templates, htemplates, h⟩ := h.partAt_text "resourceTemplates" rfl
  obtain ⟨first, hfirst, h⟩ := h.partAt_list (.int 0) rfl
  obtain ⟨inner, hinner, h⟩ := h.partAt_text "spec" rfl
  obtain ⟨found, hfound, h⟩ := h.partAt_text "template" rfl
  exact ⟨found, Fault.bind_eq_ok_iff.mpr ⟨spec, hspec, Fault.bind_eq_ok_iff.mpr
    ⟨templates, htemplates, Fault.bind_eq_ok_iff.mpr ⟨first, hfirst,
      Fault.bind_eq_ok_iff.mpr ⟨inner, hinner, hfound⟩⟩⟩⟩, h⟩

end Value

/-! ## Layers in turn -/

/-- A layer makes `b` of `a`: wrapping succeeds, and the only template in `b` has the name of the
layer's workload and the kind of an application, and decodes to the manifest of `a`. -/
structure Layer.Wraps (l : Layer) (a b : Application) : Prop where
  returns : (Application.wrap? l.workload (.ofList [a.toValue])).runIn l.context =
    (.ok (some b), l.context)
  holds : ∃ t manifest decoded, b.templates = [t] ∧
    t.name = .text (l.name ++ "-kubernetesapplication") ∧ a.toValue.manifest = .ok manifest ∧
    Value.decodePayload t.payload = .ok decoded ∧ manifest.Reordered decoded ∧
    manifest.equal decoded = true

/-- Layers put around an application in turn, the last one outermost. -/
inductive Nested : Application → List Layer → Application → Prop
  | nil (a : Application) : Nested a [] a
  | cons {l : Layer} {layers : List Layer} {a b c : Application} (step : l.Wraps a b)
      (rest : Nested b layers c) : Nested a (l :: layers) c

namespace Application

variable {templates : List Json} {a : Application}

theorem Documented.wraps (h : a.Documented name key uid templates) (l : Layer) :
    ∃ b, l.Wraps a b ∧ b.Documented l.name l.key l.uid
      [Template.document l.templateName l.key l.uid (document name key uid templates).sorted] := by
  obtain ⟨b, t, hreturns, htemplates, hname, hdecode, hdocumented⟩ := l.wrap?_documented h
  have hreordered := h.portable.matches_sorted.reordered
  exact ⟨b, ⟨hreturns, t, _, _, htemplates, hname, h.manifest, hdecode, hreordered,
    hreordered.equal h.portable.leaves⟩, hdocumented⟩

/-- Around an application with a document, layers can be put in turn; as many steps into the
manifest of the outermost one lead to a manifest that is that of the first one. -/
theorem Documented.nested (h : a.Documented name key uid templates) (layers : List Layer) :
    ∃ b outer peeled, Nested a layers b ∧ b.toValue.manifest = .ok outer ∧
      outer.unwrapped layers.length = .ok peeled ∧
      (document name key uid templates).toValue.Matches peeled := by
  induction layers generalizing a name key uid templates with
  | nil =>
      have hwellFormed := Value.wellFormed_toValue h.portable.keys
      exact ⟨a, _, _, .nil a, h.manifest, rfl, .refl hwellFormed⟩
  | cons l layers ih =>
      obtain ⟨b, hwraps, hdocumented⟩ := h.wraps l
      obtain ⟨c, outer, peeled, hnested, houter, hpeeled, hmatches⟩ := ih hdocumented
      -- The steps so far lead to the manifest of the innermost layer; one more leads through it.
      obtain ⟨found, hfound, hinner⟩ := hmatches.enclosed
      exact ⟨c, outer, found, .cons hwraps hnested, houter,
        Fault.bind_eq_ok_iff.mpr ⟨peeled, hpeeled, hfound⟩,
        h.portable.matches_sorted.trans hinner⟩

/-- Wrapping an application of well-formed children again and again, by any layers in turn, succeeds
each time: every application so made has one template, named after its workload, which decodes to
the manifest of the application inside. As many steps into the outermost manifest as there are
layers lead to the manifest of the first application. -/
theorem nested_of_wrap? {l : Layer} {mark : Mark} {children : List Value} {last : Context}
    (hchildren : ∀ child ∈ children, child.WellFormed)
    (h : (wrap? l.workload (.list mark children)).runIn l.context = (.ok (some a), last))
    (layers : List Layer) :
    ∃ b inner outer peeled, Nested a layers b ∧ a.toValue.manifest = .ok inner ∧
      b.toValue.manifest = .ok outer ∧ outer.unwrapped layers.length = .ok peeled ∧
      inner.Reordered peeled ∧ inner.equal peeled = true := by
  obtain ⟨templates, hdocumented⟩ := Layer.documented_of_wrap? hchildren h
  obtain ⟨b, outer, peeled, hnested, houter, hpeeled, hmatches⟩ := hdocumented.nested layers
  exact ⟨b, _, outer, peeled, hnested, hdocumented.manifest, houter, hpeeled, hmatches.reordered,
    hmatches.reordered.equal hdocumented.portable.leaves⟩

/-- Two layers around the application of a deployment. -/
theorem nested_of_wrap?_deployment :
    let inside : Layer := ⟨"inner", "u1", defaultLabelKey, "", [], .null, rfl, rfl, rfl⟩
    let outside : Layer := ⟨"outer", "u2", defaultLabelKey, "", [], .null, rfl, rfl, rfl⟩
    let deployment : Value := .ofEntries [("kind", "Deployment")]
    ∃ a b inner outer peeled,
      (wrap? inside.workload (.ofList [deployment])).runIn inside.context =
        (.ok (some a), inside.context) ∧
      Nested a [outside, inside] b ∧ a.toValue.manifest = .ok inner ∧
      b.toValue.manifest = .ok outer ∧ outer.unwrapped 2 = .ok peeled ∧
      inner.Reordered peeled ∧ inner.equal peeled = true := by
  intro inside outside deployment
  have hdeployment : ∀ child ∈ [deployment], child.WellFormed := by
    simp [deployment, Value.ofEntries, Value.WellFormed, Value.EntriesWellFormed, Value.Distinct]
  have hpayload : deployment.payload inside.workload.name (some 0) =
      .ok [0x7b, 0x22, 0x6b, 0x69, 0x6e, 0x64, 0x22, 0x3a, 0x22, 0x44, 0x65, 0x70, 0x6c, 0x6f, 0x79,
        0x6d, 0x65, 0x6e, 0x74, 0x22, 0x7d] := by rfl
  have hname : Template.nameOf inside.workload deployment = .ok "inner-deployment" := by rfl
  have hwrap := inside.wrap?_singleton hpayload hname
  obtain ⟨b, inner, outer, peeled, h⟩ := nested_of_wrap? hdeployment hwrap [outside, inside]
  exact ⟨_, b, inner, outer, peeled, hwrap, h⟩

end Application

end ManifestChain
