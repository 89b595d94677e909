import ManifestChain.Proofs.Calendar.Timestamp
import ManifestChain.Proofs.Payload.Faults
import ManifestChain.Proofs.Value.Encoding
import ManifestChain.Proofs.Value.Parts

/-!
# Which children have payloads

A child that does not render has a payload if and only if it is a mapping that can be written to and
every part that can be reached from it is admissible. What is reached are the values of such
mappings and the items of lists and tuples, at any depth.
-/

namespace ManifestChain

namespace Value

/-- What a part has to be for a payload: a leaf that is written, a list, a tuple, or a writable
mapping whose keys are texts. No text holds a surrogate. -/
def Admissible : Value → Prop
  | null => True
  | bool _ => True
  | int n => (Nat.toDigits 10 n.natAbs).length ≤ 4300
  | float x => x.isFinite = true
  | text t => ∀ c ∈ t, c.isSurrogate = false
  | list _ _ => True
  | tuple _ => True
  | map _ entries => ∀ e ∈ entries, ∃ k, e.1 = text k ∧ ∀ c ∈ k, c.isSurrogate = false
  | date _ _ => True
  | timestamp _ t => t.offset = none ∨ t.InYears
  | _ => False

/-- A value has a normal form of which every leaf can be written and every text has an encoding. -/
def Writable (v : Value) : Prop :=
  ∃ form, v.normal? = some form ∧ form.Every Json.WritableLeaf ∧ form.Every Json.Encodable

/-! ## Writable values by their kind -/

theorem exists_normalItems?_iff {p : Json → Prop} {items : List Value} :
    (∃ forms, normalItems? items = some forms ∧ ∀ form ∈ forms, p form) ↔
      ∀ x ∈ items, ∃ form, x.normal? = some form ∧ p form := by
  simp only [normalItems?_eq_some_iff]
  induction items with
  | nil => simp
  | cons x xs ih =>
      rw [List.forall_mem_cons, ← ih]
      constructor
      · rintro ⟨_, hforms, hp⟩
        cases hforms with
        | cons hform hforms =>
            obtain ⟨hfirst, hrest⟩ := List.forall_mem_cons.mp hp
            exact ⟨⟨_, hform, hfirst⟩, _, hforms, hrest⟩
      · rintro ⟨⟨form, hform, hfirst⟩, forms, hforms, hrest⟩
        exact ⟨form :: forms, .cons hform hforms, List.forall_mem_cons.mpr ⟨hfirst, hrest⟩⟩

theorem exists_normalMembers?_iff {p : Json → Prop} {entries : Entries} :
    (∃ members, normalMembers? entries = some members ∧
        ∀ m ∈ members, m.1.isEncodable = true ∧ p m.2) ↔
      ∀ e ∈ entries, (∃ k, e.1 = text k ∧ k.isEncodable = true) ∧
        ∃ form, e.2.normal? = some form ∧ p form := by
  simp only [normalMembers?_eq_some_iff]
  induction entries with
  | nil => simp
  | cons e es ih =>
      rw [List.forall_mem_cons, ← ih]
      constructor
      · rintro ⟨_, hmembers, hp⟩
        cases hmembers with
        | cons hmember hmembers =>
            obtain ⟨⟨hkey, hvalue⟩, hrest⟩ := List.forall_mem_cons.mp hp
            exact ⟨⟨⟨_, hmember.1, hkey⟩, _, hmember.2, hvalue⟩, _, hmembers, hrest⟩
      · rintro ⟨⟨⟨k, hk, hkey⟩, form, hform, hvalue⟩, members, hmembers, hrest⟩
        exact ⟨(k, form) :: members, .cons ⟨hk, hform⟩ hmembers,
          List.forall_mem_cons.mpr ⟨⟨hkey, hvalue⟩, hrest⟩⟩

theorem exists_writable_array_iff {items : List Value} :
    (∃ form, (normalItems? items).map Json.array = some form ∧ form.Every Json.WritableLeaf ∧
      form.Every Json.Encodable) ↔ ∀ x ∈ items, x.Writable := by
  refine Iff.trans ?_ exists_normalItems?_iff
  constructor
  · rintro ⟨form, hform, hleaves, htexts⟩
    obtain ⟨forms, hforms, rfl⟩ := Option.map_eq_some_iff.mp hform
    exact ⟨forms, hforms, fun j hj =>
      ⟨(Json.every_array_iff.mp hleaves).2 j hj, (Json.every_array_iff.mp htexts).2 j hj⟩⟩
  · rintro ⟨forms, hforms, hall⟩
    exact ⟨.array forms, Option.map_eq_some_iff.mpr ⟨forms, hforms, rfl⟩,
      Json.every_array_iff.mpr ⟨trivial, fun j hj => (hall j hj).1⟩,
      Json.every_array_iff.mpr ⟨trivial, fun j hj => (hall j hj).2⟩⟩

theorem writable_map_iff {mark : Mark} {entries : Entries} :
    (map mark entries).Writable ↔
      ∀ e ∈ entries, (∃ k, e.1 = text k ∧ k.isEncodable = true) ∧ e.2.Writable := by
  refine Iff.trans ?_ exists_normalMembers?_iff
  constructor
  · rintro ⟨form, hform, hleaves, htexts⟩
    obtain ⟨members, hmembers, rfl⟩ := Option.map_eq_some_iff.mp hform
    obtain ⟨hkeys, htexts⟩ := Json.every_object_iff.mp htexts
    exact ⟨members, hmembers, fun m hm =>
      ⟨hkeys m hm, (Json.every_object_iff.mp hleaves).2 m hm, htexts m hm⟩⟩
  · rintro ⟨members, hmembers, hall⟩
    exact ⟨.object members, Option.map_eq_some_iff.mpr ⟨members, hmembers, rfl⟩,
      Json.every_object_iff.mpr ⟨trivial, fun m hm => (hall m hm).2.1⟩,
      Json.every_object_iff.mpr ⟨fun m hm => (hall m hm).1, fun m hm => (hall m hm).2.2⟩⟩

/-! ## Leaves -/

theorem isEncodable_iff {t : Text} : t.isEncodable = true ↔ ∀ c ∈ t, c.isSurrogate = false := by
  simp [Text.isEncodable, List.all_eq_true]

theorem writable_int_iff {n : Int} : (int n).Writable ↔ (int n).Admissible := by
  have hlength : (int n).Admissible ↔ n.natAbs < Numeral.bound := by
    have hlimit : Numeral.digitLimit = 4300 := rfl
    rw [Admissible, ← hlimit]
    unfold Numeral.bound
    exact Json.length_toDigits_le_iff (by decide)
  rw [hlength]
  exact ⟨fun ⟨_, hform, hleaf, _⟩ => by cases hform; exact hleaf,
    fun h => ⟨_, rfl, h, trivial⟩⟩

theorem writable_timestamp_iff {mark : Mark} {t : Timestamp} :
    (timestamp mark t).Writable ↔ (timestamp mark t).Admissible := by
  have hyears : (timestamp mark t).Admissible ↔ t.rfc3339?.isSome = true := by
    rw [Timestamp.isSome_rfc3339?_iff]
    exact ⟨fun h => h.elim Timestamp.inYears_of_offset_eq_none id, .inr⟩
  rw [hyears]
  cases ht : t.rfc3339? with
  | none => simp [Writable, normal?, ht]
  | some s =>
      obtain ⟨moment, -, rfl⟩ := Option.map_eq_some_iff.mp ht
      simp [Writable, normal?, ht, Json.Every, Json.WritableLeaf, Json.Encodable,
        Date.isEncodable_text, Clock.isEncodable_text]

/-! ## Parts -/

/-- A value is writable if and only if every part of it is admissible. -/
theorem writable_iff {v : Value} : v.Writable ↔ ∀ part, v.Reaches part → part.Admissible := by
  induction v with
  | list mark items ih =>
      rw [Writable, normal?, exists_writable_array_iff, forall_reaches_list_iff, forall₂_congr ih]
      exact (and_iff_right trivial).symm
  | tuple items ih =>
      rw [Writable, normal?, exists_writable_array_iff, forall_reaches_tuple_iff, forall₂_congr ih]
      exact (and_iff_right trivial).symm
  | map mark entries ih =>
      rw [writable_map_iff, forall_reaches_map_iff, Admissible, ← forall₂_and]
      simp only [isEncodable_iff]
      exact forall₂_congr fun e he => and_congr_right' (ih e he).2
  | int n =>
      rw [forall_reaches_iff_of_leaf fun _ h => by cases h; rfl]
      exact writable_int_iff
  | text t =>
      rw [forall_reaches_iff_of_leaf fun _ h => by cases h; rfl]
      simp [Writable, normal?, Json.Every, Json.WritableLeaf, Json.Encodable, Admissible,
        isEncodable_iff]
  | date mark d =>
      rw [forall_reaches_iff_of_leaf fun _ h => by cases h; rfl]
      simp [Writable, normal?, Json.Every, Json.WritableLeaf, Json.Encodable, Admissible,
        d.isEncodable_text]
  | timestamp mark t =>
      rw [forall_reaches_iff_of_leaf fun _ h => by cases h; rfl]
      exact writable_timestamp_iff
  | _ =>
      rw [forall_reaches_iff_of_leaf fun _ h => by cases h; rfl]
      simp [Writable, normal?, Json.Every, Json.WritableLeaf, Json.Encodable, Admissible]

/-! ## Payloads -/

theorem exists_manifestPayload_iff {refuse : SerializationFault → Fault} {manifest : Value} :
    (∃ bytes, manifestPayload refuse manifest = .ok bytes) ↔
      (∃ mark entries, manifest = map mark entries) ∧ manifest.Writable := by
  simp only [manifestPayload_eq_ok_iff]
  constructor
  · rintro ⟨bytes, members, hform, hleaves, hbytes⟩
    have htexts := Json.exists_utf8?_print_iff.mp ⟨bytes, hbytes⟩
    refine ⟨?_, _, hform, hleaves, Json.every_encodable_sorted_iff.mp htexts⟩
    have hmapping := isMapping_of_normal? hform
    cases manifest with
    | map mark entries => exact ⟨mark, entries, rfl⟩
    | view entries => cases hform
    | _ => cases hmapping
  · rintro ⟨⟨mark, entries, rfl⟩, form, hform, hleaves, htexts⟩
    obtain ⟨members, -, rfl⟩ := Option.map_eq_some_iff.mp hform
    obtain ⟨bytes, hbytes⟩ :=
      Json.exists_utf8?_print_iff.mpr (Json.every_encodable_sorted_iff.mpr htexts)
    exact ⟨bytes, members, hform, hleaves, hbytes⟩

/-- A child that does not render has a payload exactly if it is a mapping that can be written to and
every part that is reached from it is admissible. So a set, bytes, a mapping that cannot be written
to, a number that is not finite or a key that is no text is refused wherever it is reached. -/
theorem payload_acceptance {child : Value} (h : child.rendered? = none) (workload : Value)
    (index : Option Int) : (∃ bytes, child.payload workload index = .ok bytes) ↔
      (∃ mark entries, child = map mark entries) ∧ ∀ part, child.Reaches part → part.Admissible := by
  rw [payload_of_rendered? h, exists_manifestPayload_iff, writable_iff]

/-- A tuple in a mapping is accepted, but not with a key that is an integer in a list in it. -/
theorem payload_acceptance_tuple :
    (ofEntries [("a", .tuple [.null])]).rendered? = none ∧
      (∃ bytes, (ofEntries [("a", .tuple [.null])]).payload "w" (some 0) = .ok bytes) ∧
      ¬∃ bytes, (ofEntries [("a", .tuple [.ofList [.ofEntries [(.int 1, .null)]]])]).payload "w"
        (some 0) = .ok bytes := by
  refine ⟨rfl, (payload_acceptance rfl _ _).mpr ⟨⟨none, _, rfl⟩, ?_⟩, fun h => ?_⟩
  · rintro _ (_ | _ | _ | ⟨he, hrest⟩)
    · intro e he
      cases List.mem_singleton.mp he
      exact ⟨_, rfl, by simp [Text.ofString, Text.ofChars, CodePoint.isSurrogate]⟩
    · cases List.mem_singleton.mp he
      rcases hrest with _ | _ | ⟨hx, hrest⟩
      · trivial
      · cases List.mem_singleton.mp hx
        cases hrest
        trivial
  · have hpart := ((payload_acceptance rfl _ _).mp h).2 (.ofEntries [(.int 1, .null)])
      (.entryValue List.mem_cons_self (.tupleItem List.mem_cons_self
        (.listItem List.mem_cons_self (.self _))))
    obtain ⟨k, hk, -⟩ := hpart _ List.mem_cons_self
    cases hk

end Value

end ManifestChain
