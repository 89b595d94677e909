import ManifestChain.Payload
import ManifestChain.Proofs.Json.RoundTrip
import ManifestChain.Proofs.Value.WellFormed

/-!
# The normal form of a child

The normal form of a value is the document it stands for: lists and tuples are arrays, mappings with
texts for keys are objects in their own order, dates and timestamps are texts. A payload is the text
of the normal form with its members sorted, so it decodes to the normal form but for their order,
and children with alike normal forms have one payload.
-/

namespace ManifestChain

namespace Value

mutual

/-- The document that a value stands for; none for a value with a part that has no form in one. -/
def normal? : Value → Option Json
  | null => some .null
  | bool b => some (.bool b)
  | int n => some (.int n)
  | float x => some (.float x)
  | text t => some (.text t)
  | list _ items => (normalItems? items).map .array
  | tuple items => (normalItems? items).map .array
  | map _ entries => (normalMembers? entries).map .object
  | date _ d => some (.text d.text)
  | timestamp _ t => t.rfc3339?.map .text
  | _ => none

def normalItems? : List Value → Option (List Json)
  | [] => some []
  | x :: xs => do
    let form ← normal? x
    return form :: (← normalItems? xs)

/-- Entries under keys that are texts. -/
def normalMembers? : List (Value × Value) → Option (List (Text × Json))
  | [] => some []
  | (text k, v) :: rest => do
    let form ← normal? v
    return (k, form) :: (← normalMembers? rest)
  | _ :: _ => none

end

/-- The normal form of the manifest of a child. -/
def normalForm? (child : Value) : Option Json := child.manifest.toOption.bind normal?

theorem normalItems?_eq_some_iff {items : List Value} {forms : List Json} :
    normalItems? items = some forms ↔
      List.Forall₂ (fun x form => x.normal? = some form) items forms := by
  induction items generalizing forms with
  | nil => cases forms <;> simp [normalItems?]
  | cons x xs ih =>
      rw [normalItems?]
      constructor
      · intro h
        obtain ⟨form, hform, h⟩ := Option.bind_eq_some_iff.mp h
        obtain ⟨rest, hrest, h⟩ := Option.bind_eq_some_iff.mp h
        cases h
        exact .cons hform (ih.mp hrest)
      · intro h
        cases h with
        | cons hx hxs =>
            rw [hx, ih.mpr hxs]
            rfl

theorem normalMembers?_eq_some_iff {entries : Entries} {members : List (Text × Json)} :
    normalMembers? entries = some members ↔
      List.Forall₂ (fun e m => e.1 = text m.1 ∧ e.2.normal? = some m.2) entries members := by
  induction entries generalizing members with
  | nil => cases members <;> simp [normalMembers?]
  | cons e es ih =>
      obtain ⟨k, v⟩ := e
      constructor
      · intro h
        cases k with
        | text k =>
            obtain ⟨form, hform, h⟩ := Option.bind_eq_some_iff.mp h
            obtain ⟨rest, hrest, h⟩ := Option.bind_eq_some_iff.mp h
            cases h
            exact .cons ⟨rfl, hform⟩ (ih.mp hrest)
        | _ => cases h
      · intro h
        cases h with
        | @cons _ m _ ms he hes =>
            obtain ⟨hkey, hvalue⟩ := he
            simp only at hkey hvalue
            rw [hkey, normalMembers?, hvalue, ih.mpr hes]
            rfl

theorem map_fst_of_normalMembers? {entries : Entries} {members : List (Text × Json)}
    (h : normalMembers? entries = some members) :
    entries.map Prod.fst = (members.map Prod.fst).map text := by
  rw [List.map_map, ← List.forall₂_eq_eq_eq, List.forall₂_map_left_iff,
    List.forall₂_map_right_iff]
  exact (normalMembers?_eq_some_iff.mp h).imp fun e m hem => hem.1

/-- A document is the normal form of the value it is read as. -/
theorem normal?_toValue (j : Json) : j.toValue.normal? = some j := by
  induction j with
  | array items ih =>
      rw [Json.toValue, toValues_eq_map, ofList, normal?, normalItems?_eq_some_iff.mpr]
      · rfl
      · exact List.forall₂_map_left_iff.mpr (List.forall₂_same.mpr ih)
  | object members ih =>
      rw [Json.toValue, toEntries_eq_map, ofEntries, normal?, normalMembers?_eq_some_iff.mpr]
      · rfl
      · apply List.forall₂_map_left_iff.mpr
        apply List.forall₂_same.mpr
        intro m hm
        exact ⟨rfl, ih m hm⟩
  | _ => rfl

/-- A value whose normal form is read as the value itself. -/
def IsNormal (v : Value) : Prop := ∃ form, v.normalForm? = some form ∧ form.toValue = v

theorem isNormal_toValue (j : Json) : j.toValue.IsNormal := by
  refine ⟨j, ?_, rfl⟩
  have hmanifest : j.toValue.manifest = .ok j.toValue := by cases j <;> rfl
  rw [normalForm?, hmanifest]
  exact normal?_toValue j

/-! ## Well-formed values and their normal forms -/

/-- In the normal form of a well-formed value no object has two members of one key. -/
theorem WellFormed.distinctKeys {v : Value} {form : Json} (hv : v.WellFormed)
    (hform : v.normal? = some form) : form.Every Json.DistinctKeys := by
  have harray {items : List Value} {forms : List Json} (hitems : AllWellFormed items)
      (ih : ∀ x ∈ items, ∀ {form}, x.WellFormed → x.normal? = some form →
        form.Every Json.DistinctKeys) (hforms : normalItems? items = some forms) :
      (Json.array forms).Every Json.DistinctKeys :=
    Json.every_array_iff.mpr ⟨trivial, Json.forall_of_forall₂ (normalItems?_eq_some_iff.mp hforms)
      fun x hx form hform => ih x hx (allWellFormed_iff.mp hitems x hx) hform⟩
  induction v generalizing form with
  | list mark items ih =>
      obtain ⟨forms, hforms, rfl⟩ := Option.map_eq_some_iff.mp hform
      exact harray hv ih hforms
  | tuple items ih =>
      obtain ⟨forms, hforms, rfl⟩ := Option.map_eq_some_iff.mp hform
      exact harray hv ih hforms
  | map mark entries ih =>
      obtain ⟨members, hmembers, rfl⟩ := Option.map_eq_some_iff.mp hform
      obtain ⟨hkeys, hparts⟩ := hv
      have hrelated := normalMembers?_eq_some_iff.mp hmembers
      refine Json.every_object_iff.mpr ⟨?_, Json.forall_of_forall₂ hrelated fun e he m hem =>
        (ih e he).2 (entriesWellFormed_iff.mp hparts e he).2 hem.2⟩
      rwa [map_fst_of_normalMembers? hmembers, distinct_texts_iff] at hkeys
  | timestamp mark t =>
      obtain ⟨written, -, rfl⟩ := Option.map_eq_some_iff.mp hform
      trivial
  | _ => cases hform <;> trivial

theorem nonTextKeyOfItems?_of_normalItems? {items : List Value} {forms : List Json}
    (ih : ∀ x ∈ items, ∀ {form}, x.normal? = some form → x.nonTextKey? = none)
    (h : normalItems? items = some forms) (index : Nat) :
    nonTextKeyOfItems? index items = none := by
  have hrelated := normalItems?_eq_some_iff.mp h
  clear h
  induction hrelated generalizing index with
  | nil => rfl
  | cons hx _ ihitems =>
      rw [nonTextKeyOfItems?, ih _ List.mem_cons_self hx]
      exact ihitems (fun x hx => ih x (List.mem_cons_of_mem _ hx)) _

theorem nonTextKeyOfEntries?_of_normalMembers? {entries : Entries} {members : List (Text × Json)}
    (ih : ∀ e ∈ entries, ∀ {form}, e.2.normal? = some form → e.2.nonTextKey? = none)
    (h : normalMembers? entries = some members) : nonTextKeyOfEntries? entries = none := by
  have hrelated := normalMembers?_eq_some_iff.mp h
  clear h
  induction hrelated with
  | nil => rfl
  | @cons e m es ms hem _ ihentries =>
      obtain ⟨k, v⟩ := e
      obtain ⟨rfl, hvalue⟩ := hem
      rw [nonTextKeyOfEntries?, ih _ List.mem_cons_self hvalue]
      exact ihentries fun e he => ih e (List.mem_cons_of_mem _ he)

/-- A value that has a normal form has only texts for keys. -/
theorem nonTextKey?_of_normal? {v : Value} {form : Json} (h : v.normal? = some form) :
    v.nonTextKey? = none := by
  induction v generalizing form with
  | list mark items ih =>
      obtain ⟨forms, hforms, rfl⟩ := Option.map_eq_some_iff.mp h
      exact nonTextKeyOfItems?_of_normalItems? ih hforms 0
  | tuple items ih =>
      obtain ⟨forms, hforms, rfl⟩ := Option.map_eq_some_iff.mp h
      exact nonTextKeyOfItems?_of_normalItems? ih hforms 0
  | map mark entries ih =>
      obtain ⟨members, hmembers, rfl⟩ := Option.map_eq_some_iff.mp h
      exact nonTextKeyOfEntries?_of_normalMembers? (fun e he => (ih e he).2) hmembers
  | view entries => cases h
  | _ => rfl

/-! ## Documents -/

theorem sortedMembers_ok (members : List (Text × Json)) :
    sortedMembers (members.map (Prod.map id Except.ok)) = .ok (Json.sortMembers members) := by
  rw [sortedMembers, Json.sortMembers_map]
  induction Json.sortMembers members with
  | nil => rfl
  | cons m ms ih =>
      rw [List.map_cons, List.mapM_cons, ih]
      rfl

/-- Members are put in order only if every one of them has a document. -/
theorem exists_of_sortedMembers {members : List (Text × Except Fault Json)}
    {sorted : List (Text × Json)} (h : sortedMembers members = .ok sorted) :
    ∀ m ∈ members, ∃ j, m.2 = .ok j := by
  have hall := Json.forall_of_forall₂ (p := fun m => ∃ j, m.2 = .ok j)
    (Fault.mapM_eq_ok_iff.mp h).flip fun n _ m hmn => by
      obtain ⟨j, hj, -⟩ := Fault.map_eq_ok_iff.mp hmn
      exact ⟨j, hj⟩
  exact fun m hm => hall m ((Json.sortMembers_perm members).mem_iff.mpr hm)

/-- The document that a value is written as is its normal form in order, with writable leaves. -/
def WrittenAs (v : Value) (j : Json) : Prop :=
  ∃ form, v.normal? = some form ∧ form.Every Json.WritableLeaf ∧ j = form.sorted

variable {refuse : SerializationFault → Fault}

theorem documents_eq_ok_iff {items : List Value} {js : List Json}
    (ih : ∀ x ∈ items, ∀ {j}, x.document refuse = .ok j ↔ x.WrittenAs j) :
    documents refuse items = .ok js ↔ ∃ forms, normalItems? items = some forms ∧
      (∀ form ∈ forms, form.Every Json.WritableLeaf) ∧ js = forms.map Json.sorted := by
  induction items generalizing js with
  | nil => simp [documents, normalItems?, eq_comm]
  | cons x xs ihitems =>
      have ihrest {ks : List Json} : documents refuse xs = .ok ks ↔ _ :=
        ihitems fun y hy => ih y (List.mem_cons_of_mem _ hy)
      rw [documents, Fault.bind_eq_ok_iff]
      constructor
      · rintro ⟨j, hj, h⟩
        obtain ⟨rest, hrest, h⟩ := Fault.bind_eq_ok_iff.mp h
        obtain ⟨form, hform, hleaf, rfl⟩ := (ih x List.mem_cons_self).mp hj
        obtain ⟨forms, hforms, hleaves, rfl⟩ := ihrest.mp hrest
        cases h
        refine ⟨form :: forms, ?_, List.forall_mem_cons.mpr ⟨hleaf, hleaves⟩, rfl⟩
        rw [normalItems?, hform, hforms]
        rfl
      · rintro ⟨forms, hforms, hleaves, heq⟩
        obtain ⟨form, hform, h⟩ := Option.bind_eq_some_iff.mp hforms
        obtain ⟨rest, hrest, h⟩ := Option.bind_eq_some_iff.mp h
        cases h
        obtain ⟨hleaf, hleaves⟩ := List.forall_mem_cons.mp hleaves
        refine ⟨form.sorted, (ih x List.mem_cons_self).mpr ⟨form, hform, hleaf, rfl⟩, ?_⟩
        rw [ihrest.mpr ⟨rest, hrest, hleaves, rfl⟩, heq]
        rfl

theorem members_eq {entries : Entries} {ms : List (Text × Json)}
    (ih : ∀ e ∈ entries, ∀ {j}, e.2.document refuse = .ok j ↔ e.2.WrittenAs j)
    (h : normalMembers? entries = some ms) (hleaves : ∀ m ∈ ms, m.2.Every Json.WritableLeaf) :
    members refuse entries = (ms.map (Prod.map id Json.sorted)).map (Prod.map id Except.ok) := by
  have hrelated := normalMembers?_eq_some_iff.mp h
  clear h
  induction hrelated with
  | nil => rfl
  | @cons e m es ms hem _ ihentries =>
      obtain ⟨k, v⟩ := e
      obtain ⟨rfl, hvalue⟩ := hem
      obtain ⟨hleaf, hleaves⟩ := List.forall_mem_cons.mp hleaves
      have hdocument := (ih _ List.mem_cons_self).mpr ⟨m.2, hvalue, hleaf, rfl⟩
      rw [members, hdocument, ihentries (fun e he => ih e (List.mem_cons_of_mem _ he)) hleaves]
      rfl

theorem exists_of_members {entries : Entries}
    (ih : ∀ e ∈ entries, ∀ {j}, e.2.document refuse = .ok j ↔ e.2.WrittenAs j)
    (h : ∀ m ∈ members refuse entries, ∃ j, m.2 = .ok j) :
    ∃ ms, normalMembers? entries = some ms ∧ ∀ m ∈ ms, m.2.Every Json.WritableLeaf := by
  induction entries with
  | nil => exact ⟨[], rfl, by simp⟩
  | cons e es ihentries =>
      obtain ⟨k, v⟩ := e
      cases k with
      | text k =>
          obtain ⟨⟨j, hj⟩, hrest⟩ := List.forall_mem_cons.mp h
          obtain ⟨form, hform, hleaf, -⟩ := (ih _ List.mem_cons_self).mp hj
          obtain ⟨ms, hms, hleaves⟩ :=
            ihentries (fun e he => ih e (List.mem_cons_of_mem _ he)) hrest
          refine ⟨(k, form) :: ms, ?_, List.forall_mem_cons.mpr ⟨hleaf, hleaves⟩⟩
          rw [normalMembers?, hform, hms]
          rfl
      | _ =>
          obtain ⟨j, hj⟩ := h _ List.mem_cons_self
          cases hj

theorem array_eq_ok_iff {items : List Value} {j : Json}
    (ih : ∀ x ∈ items, ∀ {j}, x.document refuse = .ok j ↔ x.WrittenAs j) :
    (documents refuse items).map Json.array = .ok j ↔
      ∃ form, (normalItems? items).map Json.array = some form ∧
        form.Every Json.WritableLeaf ∧ j = form.sorted := by
  rw [Fault.map_eq_ok_iff]
  constructor
  · rintro ⟨js, hjs, heq⟩
    obtain ⟨forms, hforms, hleaves, rfl⟩ := (documents_eq_ok_iff ih).mp hjs
    refine ⟨.array forms, by rw [hforms]; rfl, Json.every_array_iff.mpr ⟨trivial, hleaves⟩, ?_⟩
    rw [Json.sorted_array, heq]
  · rintro ⟨form, hform, hleaves, heq⟩
    obtain ⟨forms, hforms, rfl⟩ := Option.map_eq_some_iff.mp hform
    obtain ⟨-, hleaves⟩ := Json.every_array_iff.mp hleaves
    refine ⟨_, (documents_eq_ok_iff ih).mpr ⟨forms, hforms, hleaves, rfl⟩, ?_⟩
    rw [heq, Json.sorted_array]

theorem object_eq_ok_iff {entries : Entries} {j : Json}
    (ih : ∀ e ∈ entries, ∀ {j}, e.2.document refuse = .ok j ↔ e.2.WrittenAs j) :
    (sortedMembers (members refuse entries)).map Json.object = .ok j ↔
      ∃ form, (normalMembers? entries).map Json.object = some form ∧
        form.Every Json.WritableLeaf ∧ j = form.sorted := by
  rw [Fault.map_eq_ok_iff]
  constructor
  · rintro ⟨ms, hms, heq⟩
    -- every member has a document, so all of them have normal forms, and these are what was sorted
    obtain ⟨members, hmembers, hleaves⟩ := exists_of_members ih (exists_of_sortedMembers hms)
    rw [members_eq ih hmembers hleaves, sortedMembers_ok] at hms
    cases hms
    refine ⟨.object members, by rw [hmembers]; rfl,
      Json.every_object_iff.mpr ⟨trivial, hleaves⟩, ?_⟩
    rw [Json.sorted_object, heq]
  · rintro ⟨form, hform, hleaves, heq⟩
    obtain ⟨members, hmembers, rfl⟩ := Option.map_eq_some_iff.mp hform
    obtain ⟨-, hleaves⟩ := Json.every_object_iff.mp hleaves
    refine ⟨_, by rw [members_eq ih hmembers hleaves, sortedMembers_ok], ?_⟩
    rw [heq, Json.sorted_object]

/-- A value has a document if and only if it has a normal form with writable leaves, and then it is
that form with its members in order. -/
theorem document_eq_ok_iff {v : Value} {j : Json} :
    v.document refuse = .ok j ↔ v.WrittenAs j := by
  induction v generalizing j with
  | int n =>
      rw [document]
      split
      next hn => simp [WrittenAs, normal?, Json.Every, Json.WritableLeaf, Json.sorted, hn, eq_comm]
      next hn => simp [WrittenAs, normal?, Json.Every, Json.WritableLeaf, hn]
  | float x =>
      rw [document]
      split
      next hx => simp [WrittenAs, normal?, Json.Every, Json.WritableLeaf, Json.sorted, hx, eq_comm]
      next hx => simp [WrittenAs, normal?, Json.Every, Json.WritableLeaf, hx]
  | list mark items ih => exact array_eq_ok_iff fun x hx => ih x hx
  | tuple items ih => exact array_eq_ok_iff fun x hx => ih x hx
  | map mark entries ih =>
      -- keys are texts where a mapping is written, so only the values are looked at
      exact object_eq_ok_iff fun e he => (ih e he).2
  | timestamp mark t =>
      rw [document]
      cases ht : t.rfc3339? <;>
        simp [WrittenAs, normal?, Json.Every, Json.WritableLeaf, Json.sorted, ht, eq_comm]
  | _ => simp [document, WrittenAs, normal?, Json.Every, Json.WritableLeaf, Json.sorted, eq_comm]

/-! ## Payloads -/

theorem isMapping_of_normal? {v : Value} {members : List (Text × Json)}
    (h : v.normal? = some (.object members)) : v.isMapping = true := by
  cases v with
  | map mark entries => rfl
  | list mark items => obtain ⟨forms, -, heq⟩ := Option.map_eq_some_iff.mp h; cases heq
  | tuple items => obtain ⟨forms, -, heq⟩ := Option.map_eq_some_iff.mp h; cases heq
  | timestamp mark t => obtain ⟨written, -, heq⟩ := Option.map_eq_some_iff.mp h; cases heq
  | _ => cases h

theorem exists_object_of_normal? {v : Value} {form : Json} (hv : v.isMapping = true)
    (h : v.normal? = some form) : ∃ members, form = .object members := by
  cases v with
  | map mark entries =>
      obtain ⟨members, -, rfl⟩ := Option.map_eq_some_iff.mp h
      exact ⟨members, rfl⟩
  | view entries => cases h
  | _ => cases hv

/-- The bytes of a document, if its text has an encoding. -/
def encoded (j : Json) : Except Fault (List UInt8) :=
  match j.print.utf8? with
  | some encoding => .ok encoding
  | none => .error .unencodable

/-- The outcome of writing a mapping: the fault of the first key that is no text, or else the bytes
of its document. -/
theorem manifestPayload_of_isMapping {manifest : Value} (h : manifest.isMapping = true) :
    manifestPayload refuse manifest = match manifest.nonTextKey? with
      | some path => path.text >>= fun shown => .error (refuse (.nonTextKey shown))
      | none => manifest.document refuse >>= encoded := by
  unfold manifestPayload
  rw [h]
  simp only [Bool.not_true, Bool.false_eq_true, if_false]
  cases manifest.nonTextKey? with
  | some path =>
      cases htext : path.text with
      | error e => simp [bind, Except.bind, htext]
      | ok shown => simp [bind, Except.bind, htext, throw, throwThe, MonadExceptOf.throw]
  | none =>
      cases manifest.document refuse with
      | error e => simp [bind, Except.bind]
      | ok j => cases hbytes : j.print.utf8? <;>
          simp [bind, Except.bind, encoded, hbytes, pure, Except.pure, throw, throwThe,
            MonadExceptOf.throw]

theorem manifestPayload_of_not_isMapping {manifest : Value} (h : manifest.isMapping = false) :
    manifestPayload refuse manifest = .error (refuse (.notManifest manifest.typeName)) := by
  unfold manifestPayload
  rw [h]
  rfl

/-- A manifest has a payload if and only if it is a mapping whose normal form has writable leaves
and, put in order, a text with an encoding. -/
theorem manifestPayload_eq_ok_iff {manifest : Value} {bytes : List UInt8} :
    manifestPayload refuse manifest = .ok bytes ↔
      ∃ members, manifest.normal? = some (.object members) ∧
        (Json.object members).Every Json.WritableLeaf ∧
        (Json.object members).sorted.print.utf8? = some bytes := by
  constructor
  · intro h
    cases hmapping : manifest.isMapping with
    | false =>
        rw [manifestPayload_of_not_isMapping hmapping] at h
        cases h
    | true =>
        rw [manifestPayload_of_isMapping hmapping] at h
        split at h
        next path hpath =>
          obtain ⟨shown, -, h⟩ := Fault.bind_eq_ok_iff.mp h
          cases h
        next hnone =>
          obtain ⟨j, hj, h⟩ := Fault.bind_eq_ok_iff.mp h
          obtain ⟨form, hform, hleaves, rfl⟩ := document_eq_ok_iff.mp hj
          obtain ⟨members, rfl⟩ := exists_object_of_normal? hmapping hform
          refine ⟨members, hform, hleaves, ?_⟩
          unfold encoded at h
          split at h
          next encoding hencoding =>
            cases h
            exact hencoding
          next => cases h
  · rintro ⟨members, hform, hleaves, hbytes⟩
    have hdocument : manifest.document refuse = .ok (Json.object members).sorted :=
      document_eq_ok_iff.mpr ⟨_, hform, hleaves, rfl⟩
    rw [manifestPayload_of_isMapping (isMapping_of_normal? hform), nonTextKey?_of_normal? hform]
    simp only [hdocument]
    change encoded (Json.object members).sorted = _
    rw [encoded, hbytes]

/-- The same of a child and its manifest. -/
theorem payload_eq_ok_iff {child workload : Value} {index : Option Int} {bytes : List UInt8} :
    child.payload workload index = .ok bytes ↔
      ∃ members, child.normalForm? = some (.object members) ∧
        (Json.object members).Every Json.WritableLeaf ∧
        (Json.object members).sorted.print.utf8? = some bytes := by
  rw [payload, Fault.bind_eq_ok_iff]
  constructor
  · rintro ⟨manifest, hmanifest, h⟩
    obtain ⟨members, hform, h⟩ := manifestPayload_eq_ok_iff.mp h
    exact ⟨members, by rw [normalForm?, hmanifest]; exact hform, h⟩
  · rintro ⟨members, hform, h⟩
    cases hmanifest : child.manifest with
    | error e =>
        rw [normalForm?, hmanifest] at hform
        cases hform
    | ok manifest =>
        rw [normalForm?, hmanifest] at hform
        exact ⟨manifest, rfl, manifestPayload_eq_ok_iff.mpr ⟨members, hform, h⟩⟩

/-- The normal form of a well-formed child has distinct keys. -/
theorem WellFormed.normalForm {child : Value} {form : Json} (hchild : child.WellFormed)
    (hform : child.normalForm? = some form) : form.Every Json.DistinctKeys := by
  cases hmanifest : child.manifest with
  | error e =>
      rw [normalForm?, hmanifest] at hform
      cases hform
  | ok manifest =>
      rw [normalForm?, hmanifest] at hform
      exact (hchild.manifest hmanifest).distinctKeys hform

/-- The bytes of an object in order are read as it. -/
theorem ofBytes_sorted {members : List (Text × Json)} {bytes : List UInt8}
    (hkeys : (Json.object members).Every Json.DistinctKeys)
    (hleaves : (Json.object members).Every Json.WritableLeaf)
    (hbytes : (Json.object members).sorted.print.utf8? = some bytes) :
    Json.ofBytes bytes = .ok (Json.object members).sorted := by
  have hleaves' := Json.every_writableLeaf_sorted_iff.mpr hleaves
  have hkeys' := Json.every_distinctKeys_sorted_iff.mpr hkeys
  rw [Json.sorted_object] at hleaves' hkeys' hbytes ⊢
  exact Json.ofBytes_of_utf8? hleaves' hkeys' hbytes

end Value

end ManifestChain
