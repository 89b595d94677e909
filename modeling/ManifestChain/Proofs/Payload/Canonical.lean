import ManifestChain.Application
import ManifestChain.Proofs.Payload.NormalForm

/-!
# Payloads as canonical forms

A payload decodes to the normal form of its child with the keys in ascending order, and two children
have one payload if and only if their normal forms are alike.
-/

namespace ManifestChain

namespace Value

/-- Two children have normal forms that differ in the order of keys only. -/
def SameForm (c d : Value) : Prop :=
  ∃ f g, c.normalForm? = some f ∧ d.normalForm? = some g ∧ f.Alike g

theorem SameForm.symm {c d : Value} (hc : c.WellFormed) (h : c.SameForm d) : d.SameForm c := by
  obtain ⟨f, g, hf, hg, halike⟩ := h
  have hsorted := halike.sorted_eq (hc.normalForm hf)
  exact ⟨g, f, hg, hf, Json.alike_of_sorted_eq hsorted.symm⟩

/-- A payload, under whatever name and labels it is kept, decodes to the normal form of the child it
was made for: the same keys, items and leaves, with the keys in ascending order at every depth. -/
theorem decodePayload_payload {child workload : Value} {index : Option Int} {t : Template}
    (hchild : child.WellFormed) (h : child.payload workload index = .ok t.payload) :
    ∃ form decoded, child.normalForm? = some (.object form) ∧
      decodePayload t.payload = .ok (Json.object decoded).toValue ∧
      (Json.object form).Alike (.object decoded) ∧
      (Json.object decoded).Every Json.AscendingKeys := by
  obtain ⟨form, hform, hleaves, hbytes⟩ := payload_eq_ok_iff.mp h
  have hkeys := hchild.normalForm hform
  have hread := ofBytes_sorted hkeys hleaves hbytes
  have hascending := hkeys.ascendingKeys_sorted
  have halike := (Json.object form).alike_sorted
  rw [Json.sorted_object] at hread hascending halike
  refine ⟨form, _, hform, ?_, halike, hascending⟩
  rw [decodePayload, hread]
  rfl

/-- The bytes of `{"a":"\"","b":[true,null]}` decode to the normal form of a mapping that holds a
tuple. -/
theorem decodePayload_payload_tuple :
    (ofEntries [("b", .tuple [.bool true, .null]), ("a", "\"")]).WellFormed ∧
      ∃ form decoded, (ofEntries [("b", .tuple [.bool true, .null]), ("a", "\"")]).normalForm? =
          some (.object form) ∧
        decodePayload [0x7b, 0x22, 0x61, 0x22, 0x3a, 0x22, 0x5c, 0x22, 0x22, 0x2c, 0x22, 0x62, 0x22,
          0x3a, 0x5b, 0x74, 0x72, 0x75, 0x65, 0x2c, 0x6e, 0x75, 0x6c, 0x6c, 0x5d, 0x7d] =
          .ok (Json.object decoded).toValue ∧
        (Json.object form).Alike (.object decoded) ∧
        (Json.object decoded).Every Json.AscendingKeys := by
  have hchild : (ofEntries [("b", .tuple [.bool true, .null]), ("a", "\"")]).WellFormed := by
    simp [ofEntries, WellFormed, Distinct, EntriesWellFormed, AllWellFormed, equal_text,
      Text.ofString]
  have hpayload : (ofEntries [("b", .tuple [.bool true, .null]), ("a", "\"")]).payload "w" none =
      .ok [0x7b, 0x22, 0x61, 0x22, 0x3a, 0x22, 0x5c, 0x22, 0x22, 0x2c, 0x22, 0x62, 0x22, 0x3a, 0x5b,
        0x74, 0x72, 0x75, 0x65, 0x2c, 0x6e, 0x75, 0x6c, 0x6c, 0x5d, 0x7d] := by rfl
  exact ⟨hchild, decodePayload_payload (t := ⟨"w-", [], _⟩) hchild hpayload⟩

theorem payload_eq_ok_of_sameForm {c d v w : Value} {i j : Option Int} {bytes : List UInt8}
    (hc : c.WellFormed) (h : c.SameForm d) (hbytes : c.payload v i = .ok bytes) :
    d.payload w j = .ok bytes := by
  obtain ⟨f, g, hf, hg, halike⟩ := h
  have hsorted := halike.sorted_eq (hc.normalForm hf)
  obtain ⟨members, hform, hleaves, hutf8⟩ := payload_eq_ok_iff.mp hbytes
  obtain rfl := Option.some.inj (hf.symm.trans hform)
  have hobject : ∃ members, g = .object members := by
    cases halike
    exact ⟨_, rfl⟩
  obtain ⟨members', rfl⟩ := hobject
  rw [← Json.every_writableLeaf_sorted_iff, hsorted, Json.every_writableLeaf_sorted_iff] at hleaves
  rw [hsorted] at hutf8
  exact payload_eq_ok_iff.mpr ⟨members', hg, hleaves, hutf8⟩

/-- Children of alike normal forms are accepted alike and have one payload, whatever workload and
index they are written for; and children that have one payload have alike normal forms. -/
theorem payload_canonical {c d v w : Value} {i j : Option Int} (hc : c.WellFormed)
    (hd : d.WellFormed) :
    (c.SameForm d → ∀ bytes, c.payload v i = .ok bytes ↔ d.payload w j = .ok bytes) ∧
      ∀ bytes, c.payload v i = .ok bytes → d.payload w j = .ok bytes → c.SameForm d := by
  refine ⟨fun h bytes => ⟨payload_eq_ok_of_sameForm hc h,
    payload_eq_ok_of_sameForm hd (h.symm hc)⟩, fun bytes hbytes hbytes' => ?_⟩
  -- Both sorted forms are what is read from the same bytes.
  obtain ⟨f, hf, hfleaves, hfbytes⟩ := payload_eq_ok_iff.mp hbytes
  obtain ⟨g, hg, hgleaves, hgbytes⟩ := payload_eq_ok_iff.mp hbytes'
  have hfread := ofBytes_sorted (hc.normalForm hf) hfleaves hfbytes
  have hgread := ofBytes_sorted (hd.normalForm hg) hgleaves hgbytes
  have hsorted := Except.ok.inj (hfread.symm.trans hgread)
  exact ⟨_, _, hf, hg, Json.alike_of_sorted_eq hsorted⟩

/-- A mapping with a tuple and one with a list, its keys in another order, have one payload. -/
theorem payload_canonical_tuple_list :
    let c := ofEntries [("b", .tuple [.bool true]), ("a", .null)]
    let d := ofEntries [("a", .null), ("b", .ofList [.bool true])]
    c.WellFormed ∧ d.WellFormed ∧ c.SameForm d ∧
      ∀ bytes, c.payload "v" none = .ok bytes ↔ d.payload "w" (some 1) = .ok bytes := by
  intro c d
  have hc : c.WellFormed := by
    simp [c, ofEntries, WellFormed, Distinct, EntriesWellFormed, AllWellFormed, equal_text,
      Text.ofString]
  have hd : d.WellFormed := by
    simp [d, ofEntries, ofList, WellFormed, Distinct, EntriesWellFormed, AllWellFormed, equal_text,
      Text.ofString]
  have hsame : c.SameForm d := ⟨_, _, rfl, rfl, Json.alike_of_sorted_eq rfl⟩
  exact ⟨hc, hd, hsame, (payload_canonical hc hd).1 hsame⟩

end Value

end ManifestChain
