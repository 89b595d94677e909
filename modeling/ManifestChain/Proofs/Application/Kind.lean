import ManifestChain.Proofs.Application
import ManifestChain.Proofs.Value.Display
import ManifestChain.Proofs.Value.EntryOrder

/-!
# The kind of a child that has a payload

What can be written as a document can be shown in running text, so a child that has a payload has a
kind to be named after: what its manifest has under `kind`, or nothing where that is missing or
counts as false.
-/

namespace ManifestChain

namespace Value

/-- A value with writable leaves holds no integer that is too long to be shown. -/
theorem not_showsLongInt_of_normal? {v : Value} {form : Json} (h : v.normal? = some form)
    (hleaves : form.Every Json.WritableLeaf) : ¬v.ShowsLongInt := by
  suffices hshort : ∀ n ∈ v.shownInts, n.natAbs < Numeral.bound by
    rintro ⟨n, hn, hlong⟩
    exact absurd (hshort n hn) (Nat.not_lt.mpr hlong)
  have hitems {items : List Value} {forms : List Json}
      (ih : ∀ x ∈ items, ∀ {form}, x.normal? = some form → form.Every Json.WritableLeaf →
        ∀ n ∈ x.shownInts, n.natAbs < Numeral.bound)
      (hforms : normalItems? items = some forms)
      (hleaves : (Json.array forms).Every Json.WritableLeaf) :
      ∀ n ∈ shownIntsOfItems items, n.natAbs < Numeral.bound := by
    intro n hn
    obtain ⟨x, hx, hn⟩ := mem_shownIntsOfItems_iff.mp hn
    obtain ⟨form, hform, hxform⟩ :=
      Json.exists_mem_of_forall₂ (normalItems?_eq_some_iff.mp hforms) hx
    exact ih x hx hxform ((Json.every_array_iff.mp hleaves).2 form hform) n hn
  induction v generalizing form with
  | int n =>
      cases h
      rintro _ (_ | ⟨_, ⟨⟩⟩)
      exact hleaves
  | list mark items ih =>
      obtain ⟨forms, hforms, rfl⟩ := Option.map_eq_some_iff.mp h
      exact hitems ih hforms hleaves
  | tuple items ih =>
      obtain ⟨forms, hforms, rfl⟩ := Option.map_eq_some_iff.mp h
      exact hitems ih hforms hleaves
  | map mark entries ih =>
      obtain ⟨members, hmembers, rfl⟩ := Option.map_eq_some_iff.mp h
      intro n hn
      obtain ⟨e, he, hn⟩ := mem_shownIntsOfEntries_iff.mp hn
      obtain ⟨m, hm, hkey, hvalue⟩ :=
        Json.exists_mem_of_forall₂ (normalMembers?_eq_some_iff.mp hmembers) he
      -- A key is a text, in which no integer is shown.
      rw [hkey] at hn
      rcases hn with hn | hn
      · cases hn
      · exact (ih e he).2 hvalue ((Json.every_object_iff.mp hleaves).2 m hm) n hn
  | set | view | template | application | deploymentChild | serviceChild | otherChild => cases h
  | _ => simp [shownInts]

theorem exists_shown_of_normal? {v : Value} {form : Json} (h : v.normal? = some form)
    (hleaves : form.Every Json.WritableLeaf) : ∃ t, v.shown = .ok t := by
  cases hshown : v.shown with
  | ok t => exact ⟨t, rfl⟩
  | error e => exact absurd (shown_eq_error_iff.mp hshown).2 (not_showsLongInt_of_normal? h hleaves)

/-- What a mapping has at a text is null or has one of the members for its normal form. -/
theorem exists_normal?_field {entries : Entries} {members : List (Text × Json)}
    (hmembers : normalMembers? entries = some members) (key : Text) :
    ∃ form, (field entries key).normal? = some form ∧
      (form = .null ∨ (key, form) ∈ members) := by
  cases hget : entries.get? key with
  | none =>
      rw [field, hget]
      exact ⟨.null, rfl, .inl rfl⟩
  | some v =>
      obtain ⟨⟨k, form⟩, hm, hkey, hvalue⟩ :=
        Json.exists_mem_of_forall₂ (normalMembers?_eq_some_iff.mp hmembers) (mem_of_get? hget)
      cases hkey
      rw [field, hget]
      exact ⟨form, hvalue, .inr hm⟩

/-- A child whose normal form is an object has a manifest with entries for the members. -/
theorem exists_entries_of_normalForm? {child : Value} {members : List (Text × Json)}
    (h : child.normalForm? = some (.object members)) :
    ∃ mark entries, child.manifest = .ok (map mark entries) ∧
      normalMembers? entries = some members := by
  cases hmanifest : child.manifest with
  | error e =>
      rw [normalForm?, hmanifest] at h
      cases h
  | ok manifest =>
      rw [normalForm?, hmanifest] at h
      have hmapping := isMapping_of_normal? h
      cases manifest with
      | map mark entries =>
          obtain ⟨ms, hms, heq⟩ := Option.map_eq_some_iff.mp h
          cases heq
          exact ⟨mark, entries, rfl, hms⟩
      | view entries => cases h
      | _ => cases hmapping

/-- The text of what a mapping has under `kind`, empty if that is missing or counts as false. -/
def KindShown (entries : Entries) (kind : Text) : Prop :=
  if (field entries "kind").isTruthy then (field entries "kind").shown = .ok kind else kind = []

theorem kindText_eq_ok_iff {child : Value} {kind : Text} {mark : Mark} {entries : Entries}
    (h : child.manifest = .ok (map mark entries)) :
    child.kindText = .ok kind ↔ KindShown entries kind := by
  rw [kindText_of_manifest h, KindShown]
  simp only [entries?]
  split
  next => rfl
  next => rw [Except.ok.injEq, eq_comm]; rfl

theorem kindShown_of_shown {entries : Entries} {t : Text}
    (h : (field entries "kind").shown = .ok t) :
    KindShown entries (if (field entries "kind").isTruthy then t else []) := by
  unfold KindShown
  split
  next => exact h
  next => rfl

/-- A child that has a payload has a kind. -/
theorem exists_kindText_of_payload {child workload : Value} {index : Option Int}
    {bytes : List UInt8} (h : child.payload workload index = .ok bytes) :
    ∃ mark entries kind, child.manifest = .ok (map mark entries) ∧ KindShown entries kind := by
  obtain ⟨members, hform, hleaves, -⟩ := payload_eq_ok_iff.mp h
  obtain ⟨mark, entries, hmanifest, hmembers⟩ := exists_entries_of_normalForm? hform
  obtain ⟨form, hkind, hmember⟩ := exists_normal?_field hmembers "kind"
  have hwritable : form.Every Json.WritableLeaf := by
    rcases hmember with rfl | hmember
    · trivial
    · exact (Json.every_object_iff.mp hleaves).2 _ hmember
  obtain ⟨kind, hshown⟩ := exists_shown_of_normal? hkind hwritable
  exact ⟨mark, entries, _, hmanifest, kindShown_of_shown hshown⟩

end Value

end ManifestChain
