import ManifestChain.Value.Basic

/-!
# Parts of a value

What can be reached from a value through the values of writable mappings and the items of lists and
tuples, at any depth. These are the parts that go into a document of the value.
-/

namespace ManifestChain

namespace Value

/-- A part of a value, reached through values of writable mappings and items of lists and tuples;
the value itself is one. -/
inductive Reaches : Value → Value → Prop
  | self (v : Value) : Reaches v v
  | listItem {mark : Mark} {items : List Value} {x part : Value} (hx : x ∈ items)
      (rest : Reaches x part) : Reaches (list mark items) part
  | tupleItem {items : List Value} {x part : Value} (hx : x ∈ items) (rest : Reaches x part) :
      Reaches (tuple items) part
  | entryValue {mark : Mark} {entries : Entries} {e : Value × Value} {part : Value}
      (he : e ∈ entries) (rest : Reaches e.2 part) : Reaches (map mark entries) part

variable {p : Value → Prop} {mark : Mark} {items : List Value} {entries : Entries}

theorem forall_reaches_list_iff : (∀ part, (list mark items).Reaches part → p part) ↔
    p (list mark items) ∧ ∀ x ∈ items, ∀ part, x.Reaches part → p part := by
  constructor
  · exact fun h => ⟨h _ (.self _), fun x hx part hpart => h part (.listItem hx hpart)⟩
  · rintro ⟨hself, hitems⟩ _ (_ | ⟨hx, hrest⟩)
    · exact hself
    · exact hitems _ hx _ hrest

theorem forall_reaches_tuple_iff : (∀ part, (tuple items).Reaches part → p part) ↔
    p (tuple items) ∧ ∀ x ∈ items, ∀ part, x.Reaches part → p part := by
  constructor
  · exact fun h => ⟨h _ (.self _), fun x hx part hpart => h part (.tupleItem hx hpart)⟩
  · rintro ⟨hself, hitems⟩ _ (_ | _ | ⟨hx, hrest⟩)
    · exact hself
    · exact hitems _ hx _ hrest

theorem forall_reaches_map_iff : (∀ part, (map mark entries).Reaches part → p part) ↔
    p (map mark entries) ∧ ∀ e ∈ entries, ∀ part, e.2.Reaches part → p part := by
  constructor
  · exact fun h => ⟨h _ (.self _), fun e he part hpart => h part (.entryValue he hpart)⟩
  · rintro ⟨hself, hentries⟩ _ (_ | _ | _ | ⟨he, hrest⟩)
    · exact hself
    · exact hentries _ he _ hrest

/-- A value without parts of its own reaches nothing but itself. -/
theorem forall_reaches_iff_of_leaf {v : Value} (hleaf : ∀ part, v.Reaches part → part = v) :
    (∀ part, v.Reaches part → p part) ↔ p v :=
  ⟨fun h => h v (.self v), fun h part hpart => hleaf part hpart ▸ h⟩

end Value

end ManifestChain
