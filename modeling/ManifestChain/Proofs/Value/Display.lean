import ManifestChain.Proofs.Fault
import ManifestChain.Proofs.Value.WellFormed
import ManifestChain.Value.Display

/-!
# Values that cannot be shown

A value is shown unless an integer of more digits than are written is among the parts that its text
lays open. Whatever else it holds, it has a text, and the fault is always the same.
-/

namespace ManifestChain

namespace Value

theorem quotedItems_eq_ok_iff {items : List Value} {ts : List Text} :
    quotedItems items = .ok ts ↔ List.Forall₂ (fun x t => x.quoted = .ok t) items ts := by
  induction items generalizing ts with
  | nil => cases ts <;> simp [quotedItems]
  | cons x xs ih =>
      rw [quotedItems, Fault.bind_eq_ok_iff]
      constructor
      · rintro ⟨t, ht, h⟩
        obtain ⟨rest, hrest, h⟩ := Fault.bind_eq_ok_iff.mp h
        cases h
        exact .cons ht (ih.mp hrest)
      · intro h
        cases h with
        | cons hx hxs => exact ⟨_, hx, by rw [ih.mpr hxs]; rfl⟩

theorem quotedEntries_eq_ok_iff {entries : Entries} {ts : List Text} :
    quotedEntries entries = .ok ts ↔ List.Forall₂ (fun e t => ∃ kt vt : Text, e.1.quoted = .ok kt ∧
      e.2.quoted = .ok vt ∧ t = kt ++ ": " ++ vt) entries ts := by
  induction entries generalizing ts with
  | nil => cases ts <;> simp [quotedEntries]
  | cons e es ih =>
      rw [quotedEntries, Fault.bind_eq_ok_iff]
      constructor
      · rintro ⟨kt, hkt, h⟩
        obtain ⟨vt, hvt, h⟩ := Fault.bind_eq_ok_iff.mp h
        obtain ⟨rest, hrest, h⟩ := Fault.bind_eq_ok_iff.mp h
        cases h
        exact .cons ⟨kt, vt, hkt, hvt, rfl⟩ (ih.mp hrest)
      · intro h
        cases h with
        | cons he hes =>
            obtain ⟨kt, vt, hkt, hvt, rfl⟩ := he
            exact ⟨kt, hkt, by rw [hvt, ih.mpr hes]; rfl⟩

mutual

/-- The integers in the text of a value, in their order. -/
def shownInts : Value → List Int
  | int n => [n]
  | list _ items => shownIntsOfItems items
  | tuple items => shownIntsOfItems items
  | set _ items => shownIntsOfItems items
  | map _ entries => shownIntsOfEntries entries
  | view entries => shownIntsOfEntries entries
  | templateRecord name labels payload =>
    shownInts name ++ shownIntsOfEntries labels ++ shownInts payload
  | application name selector templates =>
    shownInts name ++ shownIntsOfEntries selector ++ shownIntsOfItems templates
  | deploymentChild manifest containers => shownInts manifest ++ shownInts containers
  | serviceChild manifest => shownInts manifest
  | otherChild value reason => shownInts value ++ shownInts reason
  | _ => []

def shownIntsOfItems : List Value → List Int
  | [] => []
  | x :: xs => shownInts x ++ shownIntsOfItems xs

def shownIntsOfEntries : List (Value × Value) → List Int
  | [] => []
  | (k, v) :: es => shownInts k ++ shownInts v ++ shownIntsOfEntries es

end

theorem mem_shownIntsOfItems_iff {n : Int} {xs : List Value} :
    n ∈ shownIntsOfItems xs ↔ ∃ x ∈ xs, n ∈ x.shownInts := by
  induction xs with
  | nil => simp [shownIntsOfItems]
  | cons x xs ih => simp [shownIntsOfItems, ih]

theorem mem_shownIntsOfEntries_iff {n : Int} {es : Entries} :
    n ∈ shownIntsOfEntries es ↔ ∃ e ∈ es, n ∈ e.1.shownInts ∨ n ∈ e.2.shownInts := by
  induction es with
  | nil => simp [shownIntsOfEntries]
  | cons e es ih => simp [shownIntsOfEntries, ih, or_assoc]

/-- The fault of the first integer that cannot be shown. -/
def firstUnshown? (ns : List Int) : Option Fault := ns.findSome? fun n => Fault.of? (showInt n)

@[simp] theorem firstUnshown?_append (ms ns : List Int) :
    firstUnshown? (ms ++ ns) = (firstUnshown? ms).or (firstUnshown? ns) :=
  List.findSome?_append

theorem of?_quotedItems {items : List Value}
    (ih : ∀ x ∈ items, Fault.of? x.quoted = firstUnshown? x.shownInts) :
    Fault.of? (quotedItems items) = firstUnshown? (shownIntsOfItems items) := by
  induction items with
  | nil => rfl
  | cons x xs ihitems =>
      rw [quotedItems, shownIntsOfItems, firstUnshown?_append, ← ih x List.mem_cons_self,
        ← ihitems fun y hy => ih y (List.mem_cons_of_mem _ hy)]
      exact Fault.of?_bind fun t => Fault.of?_bind_pure _ _

theorem of?_quotedEntries {entries : Entries}
    (ih : ∀ e ∈ entries, Fault.of? e.1.quoted = firstUnshown? e.1.shownInts ∧
      Fault.of? e.2.quoted = firstUnshown? e.2.shownInts) :
    Fault.of? (quotedEntries entries) = firstUnshown? (shownIntsOfEntries entries) := by
  induction entries with
  | nil => rfl
  | cons e es ihentries =>
      obtain ⟨k, v⟩ := e
      obtain ⟨hkey, hvalue⟩ := ih (k, v) List.mem_cons_self
      simp only at hkey hvalue
      rw [quotedEntries, shownIntsOfEntries, firstUnshown?_append, firstUnshown?_append, ← hkey,
        ← hvalue, ← ihentries fun f hf => ih f (List.mem_cons_of_mem _ hf), Option.or_assoc]
      exact Fault.of?_bind fun kt => Fault.of?_bind fun vt => Fault.of?_bind_pure _ _

/-- A value is shown up to the first integer in its text that cannot be. -/
theorem of?_quoted (v : Value) : Fault.of? v.quoted = firstUnshown? v.shownInts := by
  induction v with
  | int n => simp [quoted, shownInts, firstUnshown?]
  | list mark items ih => rw [quoted, Fault.of?_bind_pure, shownInts, of?_quotedItems ih]
  | tuple items ih => rw [quoted, Fault.of?_bind_pure, shownInts, of?_quotedItems ih]
  | set mark items ih =>
      -- The empty set is shown by a text of its own.
      cases items with
      | nil => rfl
      | cons x xs => exact (Fault.of?_bind_pure _ _).trans (of?_quotedItems ih)
  | map mark entries ih => rw [quoted, Fault.of?_bind_pure, shownInts, of?_quotedEntries ih]
  | view entries ih => rw [quoted, Fault.of?_bind_pure, shownInts, of?_quotedEntries ih]
  | template name labels payload ihname ihlabels ihpayload =>
      rw [quoted, shownInts, firstUnshown?_append, firstUnshown?_append, ← ihname,
        ← of?_quotedEntries ihlabels, ← ihpayload, Option.or_assoc]
      exact Fault.of?_bind fun n => Fault.of?_bind fun ls => Fault.of?_bind_pure _ _
  | application name selector templates ihname ihselector ihtemplates =>
      rw [quoted, shownInts, firstUnshown?_append, firstUnshown?_append, ← ihname,
        ← of?_quotedEntries ihselector, ← of?_quotedItems ihtemplates, Option.or_assoc]
      exact Fault.of?_bind fun n => Fault.of?_bind fun ls => Fault.of?_bind_pure _ _
  | deploymentChild manifest containers ihmanifest ihcontainers =>
      rw [quoted, shownInts, firstUnshown?_append, ← ihmanifest, ← ihcontainers]
      exact Fault.of?_bind fun m => Fault.of?_bind_pure _ _
  | serviceChild manifest ih => rw [quoted, Fault.of?_bind_pure, shownInts, ih]
  | otherChild value reason ihvalue ihreason =>
      rw [quoted, shownInts, firstUnshown?_append, ← ihvalue, ← ihreason]
      exact Fault.of?_bind fun v => Fault.of?_bind_pure _ _
  | _ => rfl

theorem of?_showInt (n : Int) : Fault.of? (showInt n) =
    if n.natAbs < Numeral.bound then none else some .badValue := by
  unfold showInt Numeral.ofInt?
  by_cases hn : n.natAbs < Numeral.bound
  · rw [if_pos hn, if_pos hn]
    rfl
  · rw [if_neg hn, if_neg hn]
    rfl

theorem firstUnshown?_eq_some_iff {ns : List Int} {e : Fault} :
    firstUnshown? ns = some e ↔ e = .badValue ∧ ∃ n ∈ ns, Numeral.bound ≤ n.natAbs := by
  rw [firstUnshown?]
  simp only [of?_showInt]
  induction ns with
  | nil => simp
  | cons n ns ih =>
      rw [List.findSome?_cons]
      by_cases hn : n.natAbs < Numeral.bound
      · rw [if_pos hn, List.exists_mem_cons_iff, or_iff_right (Nat.not_le.mpr hn)]
        exact ih
      · rw [if_neg hn]
        constructor
        · intro h
          cases h
          exact ⟨rfl, n, List.mem_cons_self, Nat.not_lt.mp hn⟩
        · rintro ⟨rfl, -⟩
          rfl

/-- A value holds an integer that a message about it would have to show and cannot. -/
def ShowsLongInt (v : Value) : Prop :=
  ∃ n ∈ v.shownInts, Numeral.bound ≤ n.natAbs

/-- Quoting a value fails exactly if an integer in its text has too many digits. -/
theorem quoted_eq_error_iff {v : Value} {e : Fault} :
    v.quoted = .error e ↔ e = .badValue ∧ v.ShowsLongInt := by
  rw [← Fault.of?_eq_some_iff, of?_quoted, firstUnshown?_eq_some_iff, ShowsLongInt]

/-- A value fails to be shown in running text exactly if it fails to be quoted. -/
theorem shown_eq_error_iff {v : Value} {e : Fault} :
    v.shown = .error e ↔ e = .badValue ∧ v.ShowsLongInt := by
  have hplain : Fault.of? v.shown = firstUnshown? v.shownInts := by
    -- Texts and dates are shown otherwise than quoted, but hold no integer.
    cases v with
    | text t => rfl
    | date mark d => rfl
    | timestamp mark t => rfl
    | view entries => exact of?_quoted (ofEntries entries)
    | _ => exact of?_quoted _
  rw [← Fault.of?_eq_some_iff, hplain, firstUnshown?_eq_some_iff, ShowsLongInt]

end Value

end ManifestChain
