import ManifestChain.Json.Parser
import ManifestChain.Proofs.Fault
import ManifestChain.Proofs.Json.Order

/-!
# The members of an object that is read

An object that is read has one member for each of its keys, whatever the text repeats. Members with
distinct keys make the object that has them in their order.
-/

namespace ManifestChain

namespace Json

/-! ## Putting members together -/

theorem put_of_not_mem {kept : List (Text × Json)} {key : Text} (h : key ∉ kept.map Prod.fst)
    (value : Json) : put kept key value = kept ++ [(key, value)] := by
  induction kept with
  | nil => rfl
  | cons m rest ih =>
      obtain ⟨k, v⟩ := m
      simp only [List.map_cons, List.mem_cons, not_or] at h
      rw [put, if_neg (Ne.symm h.1), ih h.2]
      rfl

theorem mem_put {kept : List (Text × Json)} {key : Text} {value : Json} {m : Text × Json}
    (h : m ∈ put kept key value) : m ∈ kept ∨ m = (key, value) := by
  induction kept with
  | nil => exact .inr (List.mem_singleton.mp h)
  | cons n rest ih =>
      obtain ⟨k, v⟩ := n
      rw [put] at h
      split at h
      next hk =>
        rcases List.mem_cons.mp h with rfl | hm
        · exact .inr (by rw [hk])
        · exact .inl (List.mem_cons_of_mem _ hm)
      next hk =>
        rcases List.mem_cons.mp h with rfl | hm
        · exact .inl List.mem_cons_self
        · exact (ih hm).imp_left (List.mem_cons_of_mem _)

theorem nodup_put {kept : List (Text × Json)} (h : (kept.map Prod.fst).Nodup) (key : Text)
    (value : Json) : ((put kept key value).map Prod.fst).Nodup := by
  induction kept with
  | nil => simp [put]
  | cons n rest ih =>
      obtain ⟨k, v⟩ := n
      obtain ⟨hnew, hrest⟩ := List.nodup_cons.mp h
      rw [put]
      split
      · exact h
      next hk =>
        refine List.nodup_cons.mpr ⟨fun hmem => ?_, ih hrest⟩
        obtain ⟨m, hm, hfst⟩ := List.mem_map.mp hmem
        rcases mem_put hm with hkept | rfl
        · exact hnew (hfst ▸ List.mem_map_of_mem hkept)
        · exact hk hfst.symm

theorem foldl_put_of_nodup (kept : List (Text × Json)) {members : List (Text × Json)}
    (h : ((kept ++ members).map Prod.fst).Nodup) :
    members.foldl (fun kept m => put kept m.1 m.2) kept = kept ++ members := by
  induction members generalizing kept with
  | nil => simp
  | cons m rest ih =>
      have hnew : m.1 ∉ kept.map Prod.fst := by
        rw [List.map_append, List.nodup_append] at h
        exact fun hmem => h.2.2 _ hmem _ List.mem_cons_self rfl
      rw [List.foldl_cons, put_of_not_mem hnew, ih]
      · simp
      · simpa using h

/-- Members with distinct keys make the object that has them. -/
theorem ofMembers_of_nodup {members : List (Text × Json)} (h : (members.map Prod.fst).Nodup) :
    ofMembers members = object members := by
  rw [ofMembers, foldl_put_of_nodup [] (by simpa using h), List.nil_append]

/-- Whatever members are put together, the keys of the object are distinct. -/
theorem every_ofMembers {members : List (Text × Json)} (h : ∀ m ∈ members, m.2.Every DistinctKeys) :
    (ofMembers members).Every DistinctKeys := by
  have hfold (kept : List (Text × Json)) (hkeys : (kept.map Prod.fst).Nodup)
      (hkept : ∀ m ∈ kept, m.2.Every DistinctKeys) :
      (object (members.foldl (fun kept m => put kept m.1 m.2) kept)).Every DistinctKeys := by
    induction members generalizing kept with
    | nil => exact every_object_iff.mpr ⟨hkeys, hkept⟩
    | cons m rest ih =>
        refine ih (fun n hn => h n (List.mem_cons_of_mem _ hn)) _ (nodup_put hkeys m.1 m.2) ?_
        intro n hn
        rcases mem_put hn with hn | rfl
        · exact hkept n hn
        · exact h m List.mem_cons_self
  exact hfold [] List.nodup_nil (by simp)

/-! ## What the reader returns -/

theorem every_of_parseUnsigned {negative : Bool} {t rest : Text} {j : Json}
    (h : parseUnsigned negative t = .ok (j, rest)) : j.Every DistinctKeys := by
  unfold parseUnsigned at h
  split at h
  · cases h
  · simp only at h
    split at h
    · split at h
      · cases h
        trivial
      · cases h
    · cases h
      trivial

/-- Numbers and words have no keys. -/
theorem every_of_parseLeaf {t rest : Text} {j : Json} (h : parseLeaf t = .ok (j, rest)) :
    j.Every DistinctKeys := by
  unfold parseLeaf at h
  simp only at h
  split at h
  next hword =>
    cases h
    obtain ⟨w, hw, hj⟩ := List.exists_of_findSome?_eq_some hword
    obtain ⟨after, -, hpair⟩ := Option.map_eq_some_iff.mp hj
    cases hpair
    simp only [List.mem_cons, List.not_mem_nil, or_false] at hw
    rcases hw with rfl | rfl | rfl | rfl | rfl | rfl <;> trivial
  · split at h
    · exact every_of_parseUnsigned h
    · exact every_of_parseUnsigned h

/-- What is read with some fuel has distinct keys: a value, the items of an array and the values of
members. -/
structure ReadsDistinct (fuel : Nat) : Prop where
  value : ∀ {t rest j}, parseValue fuel t = .ok (j, rest) → j.Every DistinctKeys
  items : ∀ {t rest js}, parseItems fuel t = .ok (js, rest) → ∀ j ∈ js, j.Every DistinctKeys
  members : ∀ {t rest ms}, parseMembers fuel t = .ok (ms, rest) → ∀ m ∈ ms, m.2.Every DistinctKeys

namespace ReadsDistinct

variable {fuel : Nat}

/-- A value takes its parts from items and members that were read with less fuel. -/
theorem value_succ (ih : ReadsDistinct fuel) {t rest : Text} {j : Json}
    (h : parseValue (fuel + 1) t = .ok (j, rest)) : j.Every DistinctKeys := by
  unfold parseValue at h
  split at h
  next => contradiction
  next =>
    split at h
    · cases h
      trivial
    · cases h
  next n after hfuel =>
    obtain rfl := Nat.succ.inj hfuel
    split at h
    · cases h
      exact every_array_iff.mpr ⟨trivial, by simp⟩
    · obtain ⟨⟨items, after⟩, hitems, heq⟩ := Fault.bind_eq_ok_iff.mp h
      cases heq
      exact every_array_iff.mpr ⟨trivial, ih.items hitems⟩
  next n after hfuel =>
    obtain rfl := Nat.succ.inj hfuel
    split at h
    · cases h
      exact every_object_iff.mpr ⟨List.nodup_nil, by simp⟩
    · obtain ⟨⟨members, after⟩, hmembers, heq⟩ := Fault.bind_eq_ok_iff.mp h
      cases heq
      exact every_ofMembers (ih.members hmembers)
  next => exact every_of_parseLeaf h

theorem items_succ (ih : ReadsDistinct fuel) {t rest : Text} {js : List Json}
    (h : parseItems (fuel + 1) t = .ok (js, rest)) : ∀ j ∈ js, j.Every DistinctKeys := by
  obtain ⟨⟨j, after⟩, hj, h⟩ := Fault.bind_eq_ok_iff.mp h
  simp only at h
  split at h
  next =>
    cases h
    simpa using ih.value hj
  next =>
    obtain ⟨⟨js, last⟩, hjs, heq⟩ := Fault.bind_eq_ok_iff.mp h
    cases heq
    exact List.forall_mem_cons.mpr ⟨ih.value hj, ih.items hjs⟩
  next => cases h

theorem members_succ (ih : ReadsDistinct fuel) {t rest : Text} {ms : List (Text × Json)}
    (h : parseMembers (fuel + 1) t = .ok (ms, rest)) : ∀ m ∈ ms, m.2.Every DistinctKeys := by
  unfold parseMembers at h
  split at h
  next => contradiction
  next n after hfuel =>
    obtain rfl := Nat.succ.inj hfuel
    split at h
    · cases h
    · split at h
      · obtain ⟨⟨j, after⟩, hj, h⟩ := Fault.bind_eq_ok_iff.mp h
        simp only at h
        split at h
        next =>
          cases h
          simpa using ih.value hj
        next =>
          obtain ⟨⟨ms, last⟩, hms, heq⟩ := Fault.bind_eq_ok_iff.mp h
          cases heq
          exact List.forall_mem_cons.mpr ⟨ih.value hj, ih.members hms⟩
        next => cases h
      · cases h
  next => cases h

end ReadsDistinct

theorem readsDistinct (fuel : Nat) : ReadsDistinct fuel := by
  induction fuel with
  | zero =>
      refine ⟨fun h => ?_, fun h => ?_, fun h => ?_⟩
      · simp [parseValue] at h
      · simp [parseItems] at h
      · simp [parseMembers] at h
  | succ fuel ih => exact ⟨ih.value_succ, ih.items_succ, ih.members_succ⟩

/-- In a document that is read, the keys of every object are distinct. -/
theorem every_of_parse {t : Text} {j : Json} (h : parse t = .ok j) : j.Every DistinctKeys := by
  obtain ⟨⟨k, after⟩, hk, h⟩ := Fault.bind_eq_ok_iff.mp h
  simp only at h
  split at h
  · cases h
    exact (readsDistinct _).value hk
  · cases h

theorem every_of_ofBytes {bytes : List UInt8} {j : Json} (h : ofBytes bytes = .ok j) :
    j.Every DistinctKeys := by
  unfold ofBytes at h
  split at h
  next t ht => exact every_of_parse h
  next => cases h

end Json

end ManifestChain
