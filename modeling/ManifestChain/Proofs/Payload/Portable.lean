import ManifestChain.Proofs.Json.Encoding
import ManifestChain.Proofs.Payload.NormalForm
import ManifestChain.Proofs.Value.EntryOrder

/-!
# Documents that can be written

A document can be written and is read back as it stands, in the order of its keys, if no object in
it has two members of one key, its numbers can be written and its texts have an encoding. The
manifest of every application whose names have encodings is such a document. What is read back is
equal to the value that was written.
-/

namespace ManifestChain

namespace Json

/-- A document that has a payload and is decoded from it, with its keys in order. -/
structure Portable (j : Json) : Prop where
  keys : j.Every DistinctKeys
  leaves : j.Every WritableLeaf
  texts : j.Every Encodable

theorem portable_text_iff {t : Text} : (text t).Portable ↔ t.isEncodable = true :=
  ⟨fun h => h.texts, fun h => ⟨trivial, trivial, h⟩⟩

theorem portable_array_iff {items : List Json} :
    (array items).Portable ↔ ∀ j ∈ items, j.Portable := by
  constructor
  · rintro ⟨hkeys, hleaves, htexts⟩ j hj
    exact ⟨(every_array_iff.mp hkeys).2 j hj, (every_array_iff.mp hleaves).2 j hj,
      (every_array_iff.mp htexts).2 j hj⟩
  · intro h
    exact ⟨every_array_iff.mpr ⟨trivial, fun j hj => (h j hj).keys⟩,
      every_array_iff.mpr ⟨trivial, fun j hj => (h j hj).leaves⟩,
      every_array_iff.mpr ⟨trivial, fun j hj => (h j hj).texts⟩⟩

theorem portable_object_iff {members : List (Text × Json)} :
    (object members).Portable ↔ (members.map Prod.fst).Nodup ∧
      ∀ m ∈ members, m.1.isEncodable = true ∧ m.2.Portable := by
  constructor
  · rintro ⟨hkeys, hleaves, htexts⟩
    obtain ⟨hdistinct, hkeys⟩ := every_object_iff.mp hkeys
    obtain ⟨hencodable, htexts⟩ := every_object_iff.mp htexts
    exact ⟨hdistinct, fun m hm => ⟨hencodable m hm,
      hkeys m hm, (every_object_iff.mp hleaves).2 m hm, htexts m hm⟩⟩
  · rintro ⟨hdistinct, h⟩
    exact ⟨every_object_iff.mpr ⟨hdistinct, fun m hm => (h m hm).2.keys⟩,
      every_object_iff.mpr ⟨trivial, fun m hm => (h m hm).2.leaves⟩,
      every_object_iff.mpr ⟨fun m hm => (h m hm).1, fun m hm => (h m hm).2.texts⟩⟩

theorem portable_sorted_iff {j : Json} : j.sorted.Portable ↔ j.Portable := by
  constructor
  · rintro ⟨hkeys, hleaves, htexts⟩
    exact ⟨every_distinctKeys_sorted_iff.mp hkeys, every_writableLeaf_sorted_iff.mp hleaves,
      every_encodable_sorted_iff.mp htexts⟩
  · rintro ⟨hkeys, hleaves, htexts⟩
    exact ⟨every_distinctKeys_sorted_iff.mpr hkeys, every_writableLeaf_sorted_iff.mpr hleaves,
      every_encodable_sorted_iff.mpr htexts⟩

/-! ## Values of documents -/

/-- Documents that differ in the order of members are the same up to the order of entries. -/
theorem Alike.reordered {f g : Json} (h : f.Alike g) : f.toValue.Reordered g.toValue := by
  induction f generalizing g with
  | array items ih =>
      cases h with
      | array hitems =>
          rw [toValue, toValue, Value.toValues_eq_map, Value.toValues_eq_map]
          apply Value.Reordered.list
          rw [List.forall₂_map_left_iff, List.forall₂_map_right_iff]
          exact forall₂_imp_of_mem hitems fun x hx y => ih x hx
  | object members ih =>
      cases h with
      | @object _ ns ordered order keys values =>
          rw [toValue, toValue, Value.toEntries_eq_map, Value.toEntries_eq_map]
          refine .map none none (order.map _) ?_ ?_
          · have hkeys := congrArg (List.map Value.text) keys
            simp only [List.map_map] at hkeys ⊢
            exact hkeys ▸ Value.forall₂_reordered_refl _
          · have hvalues : List.Forall₂ (fun f g => (toValue f).Reordered (toValue g))
                (members.map Prod.snd) (ordered.map Prod.snd) := by
              refine forall₂_imp_of_mem values fun f hf g => ?_
              obtain ⟨m, hm, rfl⟩ := List.mem_map.mp hf
              exact ih m hm
            simp only [List.map_map]
            rw [List.forall₂_map_left_iff, List.forall₂_map_right_iff] at hvalues ⊢
            exact hvalues
  | _ =>
      cases h
      exact .same _

theorem Portable.matches_sorted {j : Json} (h : j.Portable) :
    j.toValue.Matches j.sorted.toValue :=
  ⟨j.alike_sorted.reordered, Value.wellFormed_toValue h.keys,
    Value.wellFormed_toValue (portable_sorted_iff.mpr h).keys⟩

end Json

namespace Value

theorem subEntries_of_forall {es fs : Entries}
    (h : ∀ e ∈ es, ∃ f ∈ fs, e.1.equal f.1 = true ∧ e.2.equal f.2 = true) :
    subEntries es fs = true := by
  induction es with
  | nil => rfl
  | cons e es ih =>
      obtain ⟨k, v⟩ := e
      obtain ⟨⟨f, hf, hkey, hvalue⟩, hes⟩ := List.forall_mem_cons.mp h
      rw [subEntries, Bool.and_eq_true]
      exact ⟨List.any_eq_true.mpr ⟨f, hf, by rw [hkey, hvalue]; rfl⟩, ih hes⟩

/-- A document whose numbers are finite is equal to every value that is the same up to the order of
entries. -/
theorem Reordered.equal {j : Json} {w : Value} (h : j.toValue.Reordered w)
    (hleaves : j.Every Json.WritableLeaf) : j.toValue.equal w = true := by
  induction j generalizing w with
  | float x =>
      cases h
      cases x with
      | finite negative m => simp [Json.toValue, Value.equal, equalsFloat, Binary64.equal]
      | _ => cases hleaves
  | array items ih =>
      rw [Json.toValue, toValues_eq_map] at h ⊢
      obtain ⟨n, ys, rfl, hitems⟩ := reordered_list_iff.mp h
      rw [ofList, Value.equal]
      apply equalItems_iff.mpr
      rw [List.forall₂_map_left_iff] at hitems ⊢
      exact Json.forall₂_imp_of_mem hitems fun x hx y hxy =>
        ih x hx hxy ((Json.every_array_iff.mp hleaves).2 x hx)
  | object members ih =>
      rw [Json.toValue, toEntries_eq_map] at h ⊢
      obtain ⟨n, fs, rfl, ordered, order, hentries⟩ := reordered_map_iff.mp h
      rw [ofEntries, Value.equal, Bool.and_eq_true, beq_iff_eq]
      refine ⟨hentries.length_eq.trans order.length_eq, subEntries_of_forall fun e he => ?_⟩
      obtain ⟨f, hf, hkey, hvalue⟩ := Json.exists_mem_of_forall₂ hentries he
      obtain ⟨m, hm, rfl⟩ := List.mem_map.mp he
      refine ⟨f, order.mem_iff.mp hf, ?_,
        ih m hm hvalue ((Json.every_object_iff.mp hleaves).2 m hm)⟩
      rw [reordered_text_left_iff.mp hkey, equal_text, beq_self_eq_true]
  | _ =>
      cases h
      simp [Json.toValue, Value.equal, equalsInt]

/-! ## Children of portable normal forms -/

variable {child : Value} {members : List (Text × Json)}

/-- A child whose normal form can be written has a payload for any workload, and the payload decodes
to the normal form in order. -/
theorem exists_payload_of_portable (hform : child.normalForm? = some (.object members))
    (h : (Json.object members).Portable) (workload : Value) (index : Option Int) :
    ∃ bytes, child.payload workload index = .ok bytes ∧
      decodePayload bytes = .ok (Json.object members).sorted.toValue := by
  obtain ⟨bytes, hbytes⟩ :=
    Json.exists_utf8?_print_iff.mpr (Json.portable_sorted_iff.mpr h).texts
  refine ⟨bytes, payload_eq_ok_iff.mpr ⟨members, hform, h.leaves, hbytes⟩, ?_⟩
  rw [decodePayload, ofBytes_sorted h.keys h.leaves hbytes]
  rfl

/-- Only normal forms that can be written have payloads. -/
theorem portable_of_payload {workload : Value} {index : Option Int} {bytes : List UInt8}
    (hchild : child.WellFormed) (h : child.payload workload index = .ok bytes) :
    ∃ members, child.normalForm? = some (.object members) ∧ (Json.object members).Portable ∧
      decodePayload bytes = .ok (Json.object members).sorted.toValue := by
  obtain ⟨members, hform, hleaves, hbytes⟩ := payload_eq_ok_iff.mp h
  have hkeys := hchild.normalForm hform
  have htexts := Json.exists_utf8?_print_iff.mp ⟨bytes, hbytes⟩
  refine ⟨members, hform, ⟨hkeys, hleaves, Json.every_encodable_sorted_iff.mp htexts⟩, ?_⟩
  rw [decodePayload, ofBytes_sorted hkeys hleaves hbytes]
  rfl

end Value

end ManifestChain
