import ManifestChain.Proofs.Json.Encoding
import ManifestChain.Proofs.Payload.NormalForm
import ManifestChain.Proofs.Value.Display

/-!
# Faults of payloads

Writing stops at the first part of a child that has no form in a document, in the order of the text
that is written. All but three faults are serialization faults that name workload and index: a
timestamp outside the years that have a date, a key that cannot be shown in the message about it,
and a text without an encoding leave by other ways.
-/

namespace ManifestChain

/-- A part of a value that has no form in a document. -/
inductive Flaw where
  /-- A part that is refused. -/
  | refused (cause : SerializationFault)
  /-- A timestamp whose universal time lies outside years 1 to 9999. -/
  | stray

/-- The fault that a flaw ends in. -/
def Flaw.fault (refuse : SerializationFault → Fault) : Flaw → Fault
  | refused cause => refuse cause
  | stray => .outOfRange

namespace Value

mutual

/-- The flaws of a value in the order of writing, which is that of the keys in a mapping. -/
def flaws : Value → List Flaw
  | null => []
  | bool _ => []
  | int n => if n.natAbs < Numeral.bound then [] else [.refused .tooManyDigits]
  | float x => if x.isFinite then [] else [.refused .nonFinite]
  | text _ => []
  | list _ items => flawsOfItems items
  | tuple items => flawsOfItems items
  | map _ entries => (Json.sortMembers (flawsOfEntries entries)).flatMap Prod.snd
  | date _ _ => []
  | timestamp _ t => if t.rfc3339?.isSome then [] else [.stray]
  | v => [.refused (.unsupported v.typeName)]

def flawsOfItems : List Value → List Flaw
  | [] => []
  | x :: xs => flaws x ++ flawsOfItems xs

/-- The flaws under each key. -/
def flawsOfEntries : List (Value × Value) → List (Text × List Flaw)
  | [] => []
  | (text k, v) :: rest => (k, flaws v) :: flawsOfEntries rest
  | (k, _) :: rest => ([], [.refused (.unsupported k.typeName)]) :: flawsOfEntries rest

end

variable {refuse : SerializationFault → Fault}

/-- The fault of the first flaw. -/
def firstFault? (refuse : SerializationFault → Fault) (flaws : List Flaw) : Option Fault :=
  flaws.head?.map (Flaw.fault refuse)

theorem firstFault?_append (fs gs : List Flaw) :
    firstFault? refuse (fs ++ gs) = (firstFault? refuse fs).or (firstFault? refuse gs) := by
  cases fs <;> simp [firstFault?]

theorem firstFault?_flatMap (members : List (Text × List Flaw)) :
    firstFault? refuse (members.flatMap Prod.snd) =
      (members.map (Prod.map id (firstFault? refuse))).findSome? Prod.snd := by
  induction members with
  | nil => rfl
  | cons m ms ih =>
      rw [List.flatMap_cons, firstFault?_append, ih, List.map_cons, List.findSome?_cons]
      cases hfirst : firstFault? refuse m.2 <;> simp [Prod.map, hfirst]

/-- Members have the fault of the first one, in ascending order of keys, that has one. -/
theorem of?_sortedMembers (members : List (Text × Except Fault Json)) :
    Fault.of? (sortedMembers members) =
      (Json.sortMembers (members.map (Prod.map id Fault.of?))).findSome? Prod.snd := by
  rw [sortedMembers, Fault.of?_mapM, Json.sortMembers_map, List.findSome?_map]
  simp only [Fault.of?_map]
  rfl

theorem of?_documents {items : List Value}
    (ih : ∀ x ∈ items, Fault.of? (x.document refuse) = firstFault? refuse x.flaws) :
    Fault.of? (documents refuse items) = firstFault? refuse (flawsOfItems items) := by
  induction items with
  | nil => rfl
  | cons x xs ihitems =>
      rw [documents, flawsOfItems, firstFault?_append, ← ih x List.mem_cons_self,
        ← ihitems fun y hy => ih y (List.mem_cons_of_mem _ hy)]
      exact Fault.of?_bind fun j => Fault.of?_bind_pure _ _

theorem of?_members {entries : Entries}
    (ih : ∀ e ∈ entries, Fault.of? (e.2.document refuse) = firstFault? refuse e.2.flaws) :
    (members refuse entries).map (Prod.map id Fault.of?) =
      (flawsOfEntries entries).map (Prod.map id (firstFault? refuse)) := by
  induction entries with
  | nil => rfl
  | cons e es ihentries =>
      obtain ⟨k, v⟩ := e
      have hrest := ihentries fun f hf => ih f (List.mem_cons_of_mem _ hf)
      have hvalue := ih (k, v) List.mem_cons_self
      cases k with
      | text k => simp [members, flawsOfEntries, hrest, hvalue]
      | _ => simp [members, flawsOfEntries, hrest, firstFault?, Flaw.fault]

/-- Writing a value ends in the fault of its first flaw. -/
theorem of?_document (v : Value) : Fault.of? (v.document refuse) = firstFault? refuse v.flaws := by
  induction v with
  | int n =>
      rw [document, flaws]
      split <;> rfl
  | float x =>
      rw [document, flaws]
      split <;> rfl
  | list mark items ih => rw [document, Fault.of?_map, flaws, of?_documents ih]
  | tuple items ih => rw [document, Fault.of?_map, flaws, of?_documents ih]
  | map mark entries ih =>
      rw [document, Fault.of?_map, of?_sortedMembers, of?_members fun e he => (ih e he).2, flaws,
        firstFault?_flatMap, Json.sortMembers_map]
  | timestamp mark t =>
      rw [document, flaws]
      cases t.rfc3339? <;> rfl
  | _ => rfl

/-! ## The faults of a manifest -/

/-- A value can be written as a document, but not the text of the document in bytes. -/
def Unencodable (v : Value) : Prop :=
  ∃ form, v.normal? = some form ∧ form.Every Json.WritableLeaf ∧ ¬form.Every Json.Encodable

theorem text_eq_error_iff {path : KeyPath} {e : Fault} :
    path.text = .error e ↔ e = .badValue ∧ path.key.ShowsLongInt := by
  rw [← quoted_eq_error_iff, KeyPath.text, ← Fault.of?_eq_some_iff,
    Fault.of?_bind_pure, Fault.of?_eq_some_iff]

theorem encoded_eq_error_iff {j : Json} {e : Fault} :
    encoded j = .error e ↔ e = .unencodable ∧ ¬j.Every Json.Encodable := by
  rw [← Json.exists_utf8?_print_iff]
  unfold encoded
  cases j.print.utf8? <;> simp [eq_comm]

/-- A mapping with texts for keys has the fault of its first flaw, or no encoding. -/
theorem document_encoded_eq_error_iff {v : Value} {e : Fault} :
    v.document refuse >>= encoded = .error e ↔
      (∃ flaw, v.flaws.head? = some flaw ∧ e = flaw.fault refuse) ∨
        e = .unencodable ∧ v.Unencodable := by
  rw [Fault.bind_eq_error_iff, ← Fault.of?_eq_some_iff, of?_document, firstFault?,
    Option.map_eq_some_iff]
  refine or_congr (exists_congr fun flaw => and_congr_right fun _ => eq_comm) ?_
  constructor
  · rintro ⟨j, hj, he⟩
    obtain ⟨form, hform, hleaves, rfl⟩ := document_eq_ok_iff.mp hj
    obtain ⟨rfl, hnot⟩ := encoded_eq_error_iff.mp he
    exact ⟨rfl, form, hform, hleaves, fun hall => hnot (Json.every_encodable_sorted_iff.mpr hall)⟩
  · rintro ⟨he, form, hform, hleaves, hnot⟩
    refine ⟨_, document_eq_ok_iff.mpr ⟨form, hform, hleaves, rfl⟩, ?_⟩
    apply encoded_eq_error_iff.mpr
    refine ⟨he, ?_⟩
    exact fun hall => hnot (Json.every_encodable_sorted_iff.mp hall)

/-- A child that does not render is written as it stands. -/
theorem payload_of_rendered? {child : Value} (h : child.rendered? = none) (workload : Value)
    (index : Option Int) : child.payload workload index =
      manifestPayload (fun cause => .serialization cause workload index) child := by
  rw [payload, manifest, h]
  rfl

/-- A child that does not render, as plain data does not, fails with a serialization fault of its
workload and index, or in one of three other ways: the first key that is no text holds an integer
too long for the message, the first flaw is a timestamp outside the years that have a date, or all
of it can be written but a text in it has no encoding. -/
theorem payload_faults {child workload : Value} {index : Option Int} (h : child.rendered? = none) :
    (∀ e, child.payload workload index = .error e →
      (∃ cause, e = .serialization cause workload index) ∨
        e = .badValue ∨ e = .outOfRange ∨ e = .unencodable) ∧
    (child.payload workload index = .error .badValue ↔
      child.isMapping = true ∧ ∃ path, child.nonTextKey? = some path ∧ path.key.ShowsLongInt) ∧
    (child.payload workload index = .error .outOfRange ↔
      child.isMapping = true ∧ child.nonTextKey? = none ∧ child.flaws.head? = some .stray) ∧
    (child.payload workload index = .error .unencodable ↔
      child.isMapping = true ∧ child.Unencodable) := by
  rw [payload_of_rendered? h]
  cases hmapping : child.isMapping with
  | false => simp [manifestPayload_of_not_isMapping hmapping]
  | true =>
      rw [manifestPayload_of_isMapping hmapping]
      cases hkey : child.nonTextKey? with
      | some path =>
          -- With such a key there is no normal form, so the text is never encoded.
          have hnone : ¬child.Unencodable := by
            rintro ⟨form, hform, -⟩
            rw [nonTextKey?_of_normal? hform] at hkey
            cases hkey
          simp only [Fault.bind_eq_error_iff, text_eq_error_iff, Except.error.injEq, hnone]
          refine ⟨?_, by simp, by simp, by simp⟩
          rintro e (⟨rfl, -⟩ | ⟨shown, -, rfl⟩)
          · exact .inr (.inl rfl)
          · exact .inl ⟨_, rfl⟩
      | none =>
          simp only [document_encoded_eq_error_iff]
          cases child.flaws.head? with
          | none => simp
          | some flaw => cases flaw with
            | refused cause => simp [Flaw.fault]
            | stray => simp [Flaw.fault]

/-- A manifest with a surrogate that stands alone in one of its texts has no encoding, so its fault
names neither workload nor index. -/
theorem payload_lone_surrogate :
    (ofEntries [("a", .text [.surrogate 0])]).rendered? = none ∧
      (ofEntries [("a", .text [.surrogate 0])]).payload "w" (some 0) = .error .unencodable := by
  refine ⟨rfl, (payload_faults rfl).2.2.2.mpr
    ⟨rfl, .object [("a", .text [.surrogate 0])], rfl, ?_, ?_⟩⟩
  · simp [Json.Every, Json.EveryMember, Json.WritableLeaf]
  · simp [Json.Every, Json.EveryMember, Json.Encodable, Text.isEncodable, CodePoint.isSurrogate]

end Value

end ManifestChain
