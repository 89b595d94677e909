import ManifestChain.Proofs.Json.Members
import ManifestChain.Value.Equality
import ManifestChain.Value.Rendering

/-!
# Well-formed values

In a well-formed value no mapping has two equal keys and no set two equal items, at any depth. Every
value that is built has this form, and so has the manifest it renders to: a payload is decoded to
mappings with distinct keys.
-/

namespace ManifestChain

namespace Value

/-- A property of all values holds if it holds of those without parts, and of every other one whose
parts have it. -/
@[elab_as_elim, induction_eliminator]
theorem induction {motive : Value → Prop} (null : motive null) (bool : ∀ b, motive (bool b))
    (int : ∀ n, motive (int n)) (float : ∀ x, motive (float x)) (text : ∀ t, motive (text t))
    (bytes : ∀ b, motive (bytes b))
    (list : ∀ mark items, (∀ x ∈ items, motive x) → motive (list mark items))
    (tuple : ∀ items, (∀ x ∈ items, motive x) → motive (tuple items))
    (set : ∀ mark items, (∀ x ∈ items, motive x) → motive (set mark items))
    (map : ∀ mark entries, (∀ e ∈ entries, motive e.1 ∧ motive e.2) → motive (map mark entries))
    (view : ∀ entries, (∀ e ∈ entries, motive e.1 ∧ motive e.2) → motive (view entries))
    (date : ∀ mark d, motive (date mark d)) (timestamp : ∀ mark t, motive (timestamp mark t))
    (foreign : motive foreign)
    (rendering : ∀ manifest, motive manifest → motive (rendering manifest))
    (template : ∀ name labels payload, motive name → (∀ e ∈ labels, motive e.1 ∧ motive e.2) →
      motive payload → motive (templateRecord name labels payload))
    (application : ∀ name selector templates, motive name →
      (∀ e ∈ selector, motive e.1 ∧ motive e.2) → (∀ t ∈ templates, motive t) →
      motive (application name selector templates))
    (deploymentChild : ∀ manifest containers, motive manifest → motive containers →
      motive (deploymentChild manifest containers))
    (serviceChild : ∀ manifest, motive manifest → motive (serviceChild manifest))
    (otherChild : ∀ value reason, motive value → motive reason → motive (otherChild value reason))
    (translator : ∀ t, motive (translator t))
    (constant : ∀ result, motive result → motive (constant result)) (v : Value) : motive v :=
  Value.rec null bool int float text bytes list tuple set map view date timestamp foreign rendering
    template application deploymentChild serviceChild otherChild translator constant
    (fun _ h => absurd h List.not_mem_nil)
    (fun _ _ hx hxs y hy => (List.mem_cons.mp hy).elim (fun h => h ▸ hx) (hxs y))
    (fun _ h => absurd h List.not_mem_nil)
    (fun _ _ he hes f hf => (List.mem_cons.mp hf).elim (fun h => h ▸ he) (hes f))
    (fun _ _ hk hv => ⟨hk, hv⟩) v

/-- No two of the items are equal. -/
def Distinct (items : List Value) : Prop := items.Pairwise fun x y => x.equal y = false

mutual

/-- No mapping in a value has two equal keys, and no set two equal items. -/
def WellFormed : Value → Prop
  | list _ items => AllWellFormed items
  | tuple items => AllWellFormed items
  | set _ items => Distinct items ∧ AllWellFormed items
  | map _ entries => Distinct (entries.map Prod.fst) ∧ EntriesWellFormed entries
  | view entries => Distinct (entries.map Prod.fst) ∧ EntriesWellFormed entries
  | rendering manifest => manifest.WellFormed
  | templateRecord name labels payload =>
    name.WellFormed ∧ (Distinct (labels.map Prod.fst) ∧ EntriesWellFormed labels) ∧
      payload.WellFormed
  | application name selector templates =>
    name.WellFormed ∧ (Distinct (selector.map Prod.fst) ∧ EntriesWellFormed selector) ∧
      AllWellFormed templates
  | deploymentChild manifest containers => manifest.WellFormed ∧ containers.WellFormed
  | serviceChild manifest => manifest.WellFormed
  | otherChild value reason => value.WellFormed ∧ reason.WellFormed
  | constant result => result.WellFormed
  | _ => True

def AllWellFormed : List Value → Prop
  | [] => True
  | x :: xs => x.WellFormed ∧ AllWellFormed xs

def EntriesWellFormed : List (Value × Value) → Prop
  | [] => True
  | (k, v) :: es => (k.WellFormed ∧ v.WellFormed) ∧ EntriesWellFormed es

end

theorem allWellFormed_iff {items : List Value} :
    AllWellFormed items ↔ ∀ x ∈ items, x.WellFormed := by
  induction items with
  | nil => simp [AllWellFormed]
  | cons x xs ih => simp [AllWellFormed, ih]

theorem entriesWellFormed_iff {entries : Entries} :
    EntriesWellFormed entries ↔ ∀ e ∈ entries, e.1.WellFormed ∧ e.2.WellFormed := by
  induction entries with
  | nil => simp [EntriesWellFormed]
  | cons e es ih => simp [EntriesWellFormed, ih]

theorem equalItems_iff {xs ys : List Value} :
    equalItems xs ys = true ↔ List.Forall₂ (fun x y => x.equal y = true) xs ys := by
  induction xs generalizing ys with
  | nil => cases ys <;> simp [equalItems]
  | cons x xs ih => cases ys <;> simp [equalItems, ih]

theorem equal_text (s t : Text) : (text s).equal (text t) = (s == t) := by
  rw [equal]

/-- Texts are distinct values if and only if they are distinct texts. -/
theorem distinct_texts_iff {keys : List Text} : Distinct (keys.map text) ↔ keys.Nodup := by
  rw [Distinct, List.pairwise_map, List.Nodup]
  simp only [equal_text, beq_eq_false_iff_ne]

/-! ## Manifests -/

theorem toValues_eq_map (items : List Json) : Json.toValues items = items.map Json.toValue := by
  induction items with
  | nil => rfl
  | cons j js ih => rw [Json.toValues, ih, List.map_cons]

theorem toEntries_eq_map (members : List (Text × Json)) :
    Json.toEntries members = members.map fun m => (text m.1, m.2.toValue) := by
  induction members with
  | nil => rfl
  | cons m ms ih => rw [Json.toEntries, ih, List.map_cons]

/-- The value of a document with distinct keys is well-formed. -/
theorem wellFormed_toValue {j : Json} (h : j.Every Json.DistinctKeys) : j.toValue.WellFormed := by
  induction j with
  | array items ih =>
      rw [Json.toValue, toValues_eq_map, ofList, WellFormed, allWellFormed_iff]
      intro x hx
      obtain ⟨k, hk, rfl⟩ := List.mem_map.mp hx
      exact ih k hk ((Json.every_array_iff.mp h).2 k hk)
  | object members ih =>
      obtain ⟨hkeys, hparts⟩ := Json.every_object_iff.mp h
      rw [Json.toValue, toEntries_eq_map, ofEntries, WellFormed, entriesWellFormed_iff]
      refine ⟨?_, fun e he => ?_⟩
      · have htexts := distinct_texts_iff.mpr hkeys
        rw [List.map_map] at htexts ⊢
        exact htexts
      · obtain ⟨m, hm, rfl⟩ := List.mem_map.mp he
        exact ⟨trivial, ih m hm (hparts m hm)⟩
  | _ => trivial

/-- The payload of a template may be anything; what is read from it has distinct keys. -/
theorem wellFormed_of_decode {payload document : Value} (h : payload.decode = .ok document) :
    document.WellFormed := by
  cases payload with
  | bytes b =>
      obtain ⟨j, hj, rfl⟩ := Fault.map_eq_ok_iff.mp h
      exact wellFormed_toValue (Json.every_of_ofBytes hj)
  | text t =>
      obtain ⟨j, hj, rfl⟩ := Fault.map_eq_ok_iff.mp h
      exact wellFormed_toValue (Json.every_of_parse hj)
  | _ => cases h

/-- Items render if each of them does. -/
theorem renderedItems_eq_ok_iff {items manifests : List Value} :
    renderedItems items = .ok manifests ↔
      List.Forall₂ (fun x m => x.rendered? = some (.ok m)) items manifests := by
  induction items generalizing manifests with
  | nil => cases manifests <;> simp [renderedItems]
  | cons x xs ih =>
      rw [renderedItems]
      constructor
      · intro h
        split at h
        next r hr =>
          obtain ⟨m, hm, h⟩ := Fault.bind_eq_ok_iff.mp h
          obtain ⟨ms, hms, h⟩ := Fault.bind_eq_ok_iff.mp h
          cases h
          exact .cons (hr.trans (congrArg some hm)) (ih.mp hms)
        next =>
          obtain ⟨m, hm, -⟩ := Fault.bind_eq_ok_iff.mp h
          cases hm
      · intro h
        cases h with
        | cons hx hxs =>
            rw [hx, ih.mpr hxs]
            rfl

/-- The manifest of a well-formed value is well-formed. -/
theorem WellFormed.rendered {v m : Value} (hv : v.WellFormed) (hm : v.rendered? = some (.ok m)) :
    m.WellFormed := by
  induction v generalizing m with
  | rendering manifest ih =>
      cases hm
      exact hv
  | template name labels payload ihname ihlabels =>
      obtain ⟨document, hdocument, h⟩ := Fault.bind_eq_ok_iff.mp (Option.some.inj hm)
      cases h
      obtain ⟨hname, hlabels, -⟩ := hv
      simpa [ofEntries, WellFormed, EntriesWellFormed, Distinct, equal_text, Text.ofString,
        Text.ofChars, hname, wellFormed_of_decode hdocument] using hlabels
  | application name selector templates ihname ihselector ihtemplates =>
      obtain ⟨manifests, hmanifests, rfl⟩ := Fault.map_eq_ok_iff.mp (Option.some.inj hm)
      obtain ⟨hname, hselector, htemplates⟩ := hv
      have hall : AllWellFormed manifests := allWellFormed_iff.mpr (Json.forall_of_forall₂
        (renderedItems_eq_ok_iff.mp hmanifests) fun t ht m hm =>
          ihtemplates t ht (allWellFormed_iff.mp htemplates t ht) hm)
      simpa [applicationManifest, ofEntries, ofList, WellFormed, AllWellFormed, EntriesWellFormed,
        Distinct, equal_text, Text.ofString, Text.ofChars, hname, hall] using hselector
  | _ => cases hm

/-- The manifest of a well-formed value is well-formed, whether it renders or not. -/
theorem WellFormed.manifest {v m : Value} (hv : v.WellFormed) (hm : v.manifest = .ok m) :
    m.WellFormed := by
  rw [Value.manifest] at hm
  cases hrendered : v.rendered? with
  | none =>
      rw [hrendered] at hm
      cases hm
      exact hv
  | some r =>
      rw [hrendered] at hm
      exact hv.rendered (hrendered.trans (congrArg some hm))

end Value

end ManifestChain
