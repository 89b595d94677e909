import ManifestChain.Json.Printer
import ManifestChain.Proofs.Json.Order
import ManifestChain.Proofs.Text.Encoding

/-!
# Documents with an encoding

The text of a document has an encoding if and only if no text and no key in it holds a surrogate
that stands alone. All that is written around them is ASCII.
-/

namespace ManifestChain

namespace Text

@[simp] theorem isEncodable_nil : isEncodable [] = true := rfl

@[simp] theorem isEncodable_scalar_cons (c : Char) (t : Text) :
    isEncodable (.scalar c :: t) = isEncodable t := rfl

@[simp] theorem isEncodable_append (s t : Text) :
    isEncodable (s ++ t) = (isEncodable s && isEncodable t) :=
  List.all_append

@[simp] theorem isEncodable_ofChars (cs : List Char) : isEncodable (ofChars cs) = true := by
  induction cs with
  | nil => rfl
  | cons c cs ih => exact ih

@[simp] theorem isEncodable_ofString (s : String) : isEncodable (ofString s) = true :=
  isEncodable_ofChars s.toList

end Text

namespace Json

/-- A code point is written without an encoding only if it is a surrogate that stands alone. -/
theorem isEncodable_escape (c : CodePoint) : (escape c).isEncodable = !c.isSurrogate := by
  unfold escape
  split
  case h_8 =>
    split
    next hlow =>
      cases c with
      | scalar c => simp [Text.ofNatHex, CodePoint.isSurrogate]
      | surrogate n => simp [CodePoint.value] at hlow; omega
    next => simp [Text.isEncodable]
  all_goals rfl

theorem isEncodable_printText (t : Text) : (printText t).isEncodable = t.isEncodable := by
  have hcontent : Text.isEncodable (t.flatMap escape) = t.isEncodable := by
    induction t with
    | nil => rfl
    | cons c t ih => rw [List.flatMap_cons, Text.isEncodable_append, ih, isEncodable_escape]; rfl
  simp [printText, hcontent]

theorem isEncodable_positional (digits : List Char) (leading : Int) :
    (Layout.positional digits leading).isEncodable = true := by
  rw [Layout.positional]
  split <;> exact Text.isEncodable_ofChars _

theorem isEncodable_scientific (layout : Layout) (digits : List Char) (leading : Int) :
    (layout.scientific digits leading).isEncodable = true := by
  have hpower : (Layout.power leading).isEncodable = true := by
    rw [Layout.power]
    split <;> simp [Text.ofNatPadded]
  simp [Layout.scientific, hpower]

/-- A number has an encoding if the texts of the numbers without digits have one. -/
theorem isEncodable_number {layout : Layout} (hinfinity : layout.infinity.isEncodable = true)
    (hnan : layout.nan.isEncodable = true) (x : Binary64) :
    (layout.number x).isEncodable = true := by
  cases x with
  | finite negative m =>
      rw [Layout.number, Layout.decimal, Text.isEncodable_append, Bool.and_eq_true]
      refine ⟨by cases negative <;> rfl, ?_⟩
      split
      · exact isEncodable_positional _ _
      · exact isEncodable_scientific _ _ _
  | infinite negative =>
      rw [Layout.number, Text.isEncodable_append, hinfinity, Bool.and_true]
      cases negative <;> rfl
  | nan => exact hnan

theorem isEncodable_printInt (n : Int) : (printInt n).isEncodable = true := by
  rw [printInt]
  split <;> simp [Text.ofNat]

/-- The texts right inside a document, keys among them, have an encoding. -/
def Encodable : Json → Prop
  | text t => t.isEncodable = true
  | object members => ∀ m ∈ members, m.1.isEncodable = true
  | _ => True

theorem isEncodable_printItems (items : List Json) :
    (printItems items).isEncodable = true ↔ ∀ j ∈ items, j.print.isEncodable = true := by
  induction items with
  | nil => simp [printItems]
  | cons j js ih => simp [printItems, ih]

theorem isEncodable_printMembers (members : List (Text × Json)) :
    (printMembers members).isEncodable = true ↔
      ∀ m ∈ members, m.1.isEncodable = true ∧ m.2.print.isEncodable = true := by
  induction members with
  | nil => simp [printMembers]
  | cons m ms ih => simp [printMembers, isEncodable_printText, ih, and_assoc]

/-- The text of a document has an encoding if and only if all texts in the document have one. -/
theorem isEncodable_print_iff {j : Json} : j.print.isEncodable = true ↔ j.Every Encodable := by
  induction j with
  | null => exact iff_of_true rfl trivial
  | bool b => cases b <;> exact iff_of_true rfl trivial
  | int n => exact iff_of_true (isEncodable_printInt n) trivial
  | float x => exact iff_of_true (isEncodable_number rfl rfl x) trivial
  | text t => rw [print, isEncodable_printText]; rfl
  | array items ih =>
      have hitems : (array items).print.isEncodable = true ↔
          ∀ j ∈ items, j.print.isEncodable = true := by
        cases items with
        | nil => simp [print]
        | cons j js => simp [print, isEncodable_printItems]
      rw [hitems, every_array_iff]
      exact ⟨fun h => ⟨trivial, fun j hj => (ih j hj).mp (h j hj)⟩,
        fun h j hj => (ih j hj).mpr (h.2 j hj)⟩
  | object members ih =>
      have hmembers : (object members).print.isEncodable = true ↔
          ∀ m ∈ members, m.1.isEncodable = true ∧ m.2.print.isEncodable = true := by
        cases members with
        | nil => simp [print]
        | cons m ms => simp [print, isEncodable_printText, isEncodable_printMembers, and_assoc]
      rw [hmembers, every_object_iff]
      exact ⟨fun h => ⟨fun m hm => (h m hm).1, fun m hm => (ih m hm).mp (h m hm).2⟩,
        fun h m hm => ⟨h.1 m hm, (ih m hm).mpr (h.2 m hm)⟩⟩

/-- A document can be written in bytes exactly if all texts in it have an encoding. -/
theorem exists_utf8?_print_iff {j : Json} :
    (∃ bytes, j.print.utf8? = some bytes) ↔ j.Every Encodable := by
  rw [← isEncodable_print_iff, ← Bool.not_eq_false, ← Text.utf8?_eq_none_iff]
  exact Option.ne_none_iff_exists'.symm

theorem every_encodable_sorted_iff {j : Json} : j.sorted.Every Encodable ↔ j.Every Encodable := by
  apply every_sorted_iff
  intro k
  cases k with
  | object members =>
      rw [sorted_object]
      constructor
      · intro h m hm
        exact h (Prod.map id Json.sorted m)
          ((sortMembers_perm _).mem_iff.mpr (List.mem_map_of_mem hm))
      · intro h m hm
        obtain ⟨n, hn, rfl⟩ := List.mem_map.mp ((sortMembers_perm _).mem_iff.mp hm)
        exact h n hn
  | array items => rw [sorted_array]; exact Iff.rfl
  | _ => exact Iff.rfl

end Json

end ManifestChain
