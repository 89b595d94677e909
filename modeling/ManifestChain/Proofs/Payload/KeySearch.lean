import ManifestChain.Proofs.Payload.Faults

/-!
# The search for a key that is no text

A key stands at a position in a value: the indices of the entries and items that lead to its
mapping, and that of its own entry. In the order of positions a key comes before everything in its
value, and after everything in the entries before it. The search finds the key at the first position
with one that is no text, and the text of the finding spells the way to it.
-/

namespace ManifestChain

namespace Value

def IsText (v : Value) : Prop := ∃ t, v = text t

/-- The items of a list or a tuple. -/
def sequence? : Value → Option (List Value)
  | list _ items => some items
  | tuple items => some items
  | _ => none

/-- The parts that the search goes into, one after the other: the values of a mapping, writable or
not, or the items of a list or a tuple. -/
def searched (v : Value) : List Value :=
  match v.entries? with
  | some entries => entries.map Prod.snd
  | none => v.sequence?.getD []

/-- A part that the search may come to from a value; the value itself is one. -/
inductive Holds : Value → Value → Prop
  | self (v : Value) : Holds v v
  | within {v x part : Value} (hx : x ∈ v.searched) (rest : Holds x part) : Holds v part

/-- A value has a key at a position. -/
inductive KeyAt : Value → List Nat → Value → Prop
  | own {v key x : Value} {entries : Entries} {i : Nat} (hentries : v.entries? = some entries)
      (hentry : entries[i]? = some (key, x)) : KeyAt v [i] key
  | within {v x key : Value} {i : Nat} {place : List Nat} (hx : v.searched[i]? = some x)
      (rest : KeyAt x place key) : KeyAt v (i :: place) key

/-- A text spells the way to the key at a position: a point and the key for an entry, the index in
brackets for an item, and the key itself in brackets in the end. -/
inductive Spells : Value → List Nat → Text → Prop
  | own {v key x : Value} {entries : Entries} {i : Nat} {shown : Text}
      (hentries : v.entries? = some entries) (hentry : entries[i]? = some (key, x))
      (hkey : key.quoted = .ok shown) : Spells v [i] ("[" ++ shown ++ "]")
  | entry {v x : Value} {entries : Entries} {i : Nat} {k way : Text} {place : List Nat}
      (hentries : v.entries? = some entries) (hentry : entries[i]? = some (text k, x))
      (rest : Spells x place way) : Spells v (i :: place) ("." ++ k ++ way)
  | item {v x : Value} {items : List Value} {i : Nat} {way : Text} {place : List Nat}
      (hitems : v.sequence? = some items) (hitem : items[i]? = some x)
      (rest : Spells x place way) : Spells v (i :: place) ("[" ++ Text.ofNat i ++ "]" ++ way)

/-- The order of positions: by the first indices that differ, a position before its extensions. -/
def NotAfter (place other : List Nat) : Prop := place = other ∨ List.Lex (· < ·) place other

/-- The key at a position is the first one that is no text. -/
structure FirstNonText (v : Value) (place : List Nat) (key : Value) : Prop where
  keyAt : v.KeyAt place key
  nonText : ¬key.IsText
  least : ∀ other found, v.KeyAt other found → ¬found.IsText → NotAfter place other

variable {v x key : Value} {entries : Entries} {items : List Value} {i : Nat} {place : List Nat}
  {way : Text} {path : KeyPath}

/-! ## Positions in mappings and sequences -/

theorem searched_of_entries? (h : v.entries? = some entries) :
    v.searched = entries.map Prod.snd := by
  rw [searched, h]

theorem entries?_of_sequence? (h : v.sequence? = some items) : v.entries? = none := by
  cases v with
  | list | tuple => rfl
  | _ => cases h

theorem searched_of_sequence? (h : v.sequence? = some items) : v.searched = items := by
  rw [searched, entries?_of_sequence? h, h]
  rfl

/-- A property of all values holds if every value has it whose searched parts have it. -/
theorem searched_induction {motive : Value → Prop}
    (parts : ∀ v, (∀ x ∈ v.searched, motive x) → motive v) (v : Value) : motive v := by
  induction v with
  | list mark items ih => exact parts _ ih
  | tuple items ih => exact parts _ ih
  | map mark entries ih => exact parts _ (List.forall_mem_map.mpr fun e he => (ih e he).2)
  | view entries ih => exact parts _ (List.forall_mem_map.mpr fun e he => (ih e he).2)
  | _ => exact parts _ fun x hx => absurd hx List.not_mem_nil

theorem not_keyAt_nil : ¬v.KeyAt [] key := nofun

theorem keyAt_cons_of_entries? (h : v.entries? = some entries) : v.KeyAt (i :: place) key ↔
    ∃ e, entries[i]? = some e ∧ (place = [] ∧ key = e.1 ∨ e.2.KeyAt place key) := by
  constructor
  · rintro (⟨hentries, hentry⟩ | ⟨hx, hrest⟩)
    · cases h.symm.trans hentries
      exact ⟨_, hentry, .inl ⟨rfl, rfl⟩⟩
    · rw [searched_of_entries? h, List.getElem?_map, Option.map_eq_some_iff] at hx
      obtain ⟨e, he, rfl⟩ := hx
      exact ⟨e, he, .inr hrest⟩
  · rintro ⟨e, he, ⟨rfl, rfl⟩ | hrest⟩
    · exact .own h he
    · refine .within ?_ hrest
      rw [searched_of_entries? h, List.getElem?_map, he, Option.map_some]

theorem keyAt_cons_of_sequence? (h : v.sequence? = some items) : v.KeyAt (i :: place) key ↔
    ∃ x, items[i]? = some x ∧ x.KeyAt place key := by
  constructor
  · rintro (⟨hentries, -⟩ | ⟨hx, hrest⟩)
    · cases (entries?_of_sequence? h).symm.trans hentries
    · rw [searched_of_sequence? h] at hx
      exact ⟨_, hx, hrest⟩
  · rintro ⟨x, hx, hrest⟩
    refine .within ?_ hrest
    rwa [searched_of_sequence? h]

theorem spells_cons_of_entries? (h : v.entries? = some entries) : v.Spells (i :: place) way ↔
    ∃ e, entries[i]? = some e ∧
      ((place = [] ∧ ∃ shown, e.1.quoted = .ok shown ∧ way = "[" ++ shown ++ "]") ∨
        ∃ k rest, e.1 = text k ∧ e.2.Spells place rest ∧ way = "." ++ k ++ rest) := by
  constructor
  · rintro (⟨hentries, hentry, hkey⟩ | ⟨hentries, hentry, hrest⟩ | ⟨hitems, -, -⟩)
    · cases h.symm.trans hentries
      exact ⟨_, hentry, .inl ⟨rfl, _, hkey, rfl⟩⟩
    · cases h.symm.trans hentries
      exact ⟨_, hentry, .inr ⟨_, _, rfl, hrest, rfl⟩⟩
    · cases h.symm.trans (entries?_of_sequence? hitems)
  · rintro ⟨⟨key, x⟩, he, ⟨rfl, shown, hkey, rfl⟩ | ⟨k, rest, rfl, hrest, rfl⟩⟩
    · exact .own h he hkey
    · exact .entry h he hrest

theorem spells_cons_of_sequence? (h : v.sequence? = some items) : v.Spells (i :: place) way ↔
    ∃ x rest, items[i]? = some x ∧ x.Spells place rest ∧
      way = "[" ++ Text.ofNat i ++ "]" ++ rest := by
  constructor
  · rintro (⟨hentries, -, -⟩ | ⟨hentries, -, -⟩ | ⟨hitems, hitem, hrest⟩)
    · cases (entries?_of_sequence? h).symm.trans hentries
    · cases (entries?_of_sequence? h).symm.trans hentries
    · cases h.symm.trans hitems
      exact ⟨_, _, hitem, hrest, rfl⟩
  · rintro ⟨x, rest, hx, hrest, rfl⟩
    exact .item h hx hrest

/-- The keys at positions are those of the mappings that a value holds. -/
theorem exists_keyAt_iff : (∃ place, v.KeyAt place key) ↔
    ∃ part entries, v.Holds part ∧ part.entries? = some entries ∧ key ∈ entries.map Prod.fst := by
  constructor
  · rintro ⟨place, h⟩
    induction h with
    | own hentries hentry =>
        exact ⟨_, _, .self _, hentries, List.mem_map_of_mem (List.mem_of_getElem? hentry)⟩
    | within hx _ ih =>
        obtain ⟨part, entries, hpart, hentries, hkey⟩ := ih
        exact ⟨part, entries, .within (List.mem_of_getElem? hx) hpart, hentries, hkey⟩
  · rintro ⟨part, entries, hpart, hentries, hkey⟩
    induction hpart with
    | self =>
        obtain ⟨e, he, rfl⟩ := List.mem_map.mp hkey
        obtain ⟨i, hi⟩ := List.mem_iff_getElem?.mp he
        exact ⟨[i], .own hentries hi⟩
    | within hx _ ih =>
        obtain ⟨place, hplace⟩ := ih hentries
        obtain ⟨i, hi⟩ := List.mem_iff_getElem?.mp hx
        exact ⟨i :: place, .within hi hplace⟩

theorem KeyAt.unique {other : Value} (h : v.KeyAt place key) (h' : v.KeyAt place other) :
    key = other := by
  induction h with
  | own hentries hentry =>
      cases h' with
      | own hentries' hentry' =>
          cases hentries.symm.trans hentries'
          cases hentry.symm.trans hentry'
          rfl
      | within _ hrest => exact (not_keyAt_nil hrest).elim
  | within hx hrest ih =>
      cases h' with
      | own => exact (not_keyAt_nil hrest).elim
      | within hx' hrest' =>
          cases hx.symm.trans hx'
          exact ih hrest'

theorem NotAfter.antisymm {other : List Nat} (h : NotAfter place other)
    (h' : NotAfter other place) : place = other := by
  rcases h with rfl | h
  · rfl
  · rcases h' with rfl | h'
    · rfl
    · exact (asymm h h').elim

/-- At most one position has the first key that is no text. -/
theorem FirstNonText.unique {other : List Nat} {found : Value} (h : v.FirstNonText place key)
    (h' : v.FirstNonText other found) : place = other ∧ key = found := by
  obtain rfl := (h.least other found h'.keyAt h'.nonText).antisymm
    (h'.least place key h.keyAt h.nonText)
  exact ⟨rfl, h.keyAt.unique h'.keyAt⟩

/-! ## What the search finds -/

/-- What the search finds at an entry. -/
def entryKey? (e : Value × Value) : Option KeyPath :=
  match e.1 with
  | text k => e.2.nonTextKey?.map (KeyPath.under (.key k))
  | key => some ⟨[], key⟩

/-- What the search finds at an item with an index. -/
def itemKey? (x : Value) (i : Nat) : Option KeyPath := x.nonTextKey?.map (KeyPath.under (.index i))

theorem nonTextKeyOfEntries?_eq (entries : Entries) :
    nonTextKeyOfEntries? entries = entries.findSome? entryKey? := by
  induction entries with
  | nil => rfl
  | cons e es ih =>
      obtain ⟨k, x⟩ := e
      cases k with
      | text k =>
          rw [nonTextKeyOfEntries?, List.findSome?_cons, entryKey?, ih]
          cases x.nonTextKey? <;> rfl
      | _ => rfl

theorem nonTextKeyOfItems?_eq (i : Nat) (items : List Value) :
    nonTextKeyOfItems? i items = (items.zipIdx i).findSome? fun p => itemKey? p.1 p.2 := by
  induction items generalizing i with
  | nil => rfl
  | cons x xs ih =>
      rw [nonTextKeyOfItems?, List.zipIdx_cons, List.findSome?_cons, itemKey?, ih]
      cases x.nonTextKey? <;> rfl

/-- The first outcome along a list, by its index. -/
theorem findSome?_cases {α β : Type} {f : α → Option β} (xs : List α) :
    (xs.findSome? f = none ∧ ∀ i : Nat, xs[i]?.bind f = none) ∨
      ∃ (i : Nat) (b : β), xs.findSome? f = some b ∧ xs[i]?.bind f = some b ∧
        ∀ j < i, xs[j]?.bind f = none := by
  cases h : xs.findSome? f with
  | none =>
      refine .inl ⟨rfl, fun i => ?_⟩
      cases hi : xs[i]? with
      | none => rfl
      | some x => exact List.findSome?_eq_none_iff.mp h x (List.mem_of_getElem? hi)
  | some b =>
      obtain ⟨before, a, after, rfl, ha, hbefore⟩ := List.findSome?_eq_some_iff.mp h
      refine .inr ⟨before.length, b, rfl, by simpa using ha, fun j hj => ?_⟩
      rw [List.getElem?_append_left hj]
      cases hx : before[j]? with
      | none => rfl
      | some x => exact hbefore x (List.mem_of_getElem? hx)

/-- What the search should find in a value: nothing if all keys are texts, else a path that spells
the way to the first key that is none. -/
def Locates (v : Value) : Option KeyPath → Prop
  | none => ∀ place key, v.KeyAt place key → key.IsText
  | some path => ∃ place, v.FirstNonText place path.key ∧
      ∀ way, path.text = .ok way ↔ v.Spells place way

/-- What the search should find at the positions that begin with an index. -/
def LocatesAt (v : Value) (i : Nat) : Option KeyPath → Prop
  | none => ∀ place key, v.KeyAt (i :: place) key → key.IsText
  | some path => ∃ place, (v.KeyAt (i :: place) path.key ∧ ¬path.key.IsText ∧
      ∀ other found, v.KeyAt (i :: other) found → ¬found.IsText → NotAfter place other) ∧
        ∀ way, path.text = .ok way ↔ v.Spells (i :: place) way

/-- The search of a value may go by the first index at which there is something to find. -/
theorem locates_of_first {outcome : Nat → Option KeyPath} (hat : ∀ i, v.LocatesAt i (outcome i))
    {result : Option KeyPath} (hresult : (result = none ∧ ∀ i, outcome i = none) ∨
      ∃ i path, result = some path ∧ outcome i = some path ∧ ∀ j < i, outcome j = none) :
    v.Locates result := by
  rcases hresult with ⟨rfl, hnone⟩ | ⟨i, path, rfl, hi, hbefore⟩
  · rintro (_ | ⟨i, place⟩) key hkey
    · exact (not_keyAt_nil hkey).elim
    · have hati := hat i
      rw [hnone i] at hati
      exact hati place key hkey
  · have hati := hat i
    rw [hi] at hati
    obtain ⟨place, ⟨hkey, hnot, hleast⟩, hway⟩ := hati
    refine ⟨i :: place, ⟨hkey, hnot, ?_⟩, hway⟩
    rintro (_ | ⟨j, other⟩) found hfound hstray
    · exact (not_keyAt_nil hfound).elim
    · rcases Nat.lt_trichotomy i j with hlt | rfl | hlt
      · exact .inr (.rel hlt)
      · exact (hleast other found hfound hstray).imp (congrArg _) .cons
      · -- Below the index there is nothing to find.
        have hatj := hat j
        rw [hbefore j hlt] at hatj
        exact (hstray (hatj other found hfound)).elim

theorem text_eq_ok_iff : path.text = .ok way ↔ ∃ shown, path.key.quoted = .ok shown ∧
    way = path.steps.flatMap PathStep.text ++ "[" ++ shown ++ "]" := by
  rw [KeyPath.text, Fault.bind_eq_ok_iff]
  refine exists_congr fun shown => and_congr_right fun _ => ⟨fun h => ?_, fun h => h ▸ rfl⟩
  cases h
  rfl

theorem text_under_eq_ok_iff {step : PathStep} : (path.under step).text = .ok way ↔
    ∃ rest, path.text = .ok rest ∧ way = step.text ++ rest := by
  simp only [text_eq_ok_iff]
  constructor
  · rintro ⟨shown, hshown, rfl⟩
    exact ⟨_, ⟨shown, hshown, rfl⟩, by simp [KeyPath.under]⟩
  · rintro ⟨_, ⟨shown, hshown, rfl⟩, rfl⟩
    exact ⟨shown, hshown, by simp [KeyPath.under]⟩

/-- At an index the search finds what it should if it does so in the part that a step leads to, and
the positions with the index are those in the part, but for a text as the key of an entry. -/
theorem locatesAt_of_step {step : PathStep} (hx : x.Locates x.nonTextKey?)
    (hkeys : ∀ place key, v.KeyAt (i :: place) key → key.IsText ∨ x.KeyAt place key)
    (hback : ∀ place key, x.KeyAt place key → v.KeyAt (i :: place) key)
    (hways : ∀ place way, place ≠ [] →
      (v.Spells (i :: place) way ↔ ∃ rest, x.Spells place rest ∧ way = step.text ++ rest)) :
    v.LocatesAt i (x.nonTextKey?.map (KeyPath.under step)) := by
  cases hfound : x.nonTextKey? with
  | none =>
      rw [hfound] at hx
      exact fun place key hkey => (hkeys place key hkey).elim id (hx place key)
  | some path =>
      rw [hfound] at hx
      obtain ⟨place, hfirst, hway⟩ := hx
      refine ⟨place, ⟨hback _ _ hfirst.keyAt, hfirst.nonText, fun other found hother hstray => ?_⟩,
        fun way => ?_⟩
      · exact hfirst.least other found ((hkeys other found hother).resolve_left hstray) hstray
      · have hne : place ≠ [] := by
          rintro rfl
          exact not_keyAt_nil hfirst.keyAt
        rw [text_under_eq_ok_iff, hways place way hne]
        exact exists_congr fun rest => and_congr_left fun _ => hway rest

/-- A key that is no text comes before everything else with the index of its entry. -/
theorem locatesAt_own (h : v.entries? = some entries) (hentry : entries[i]? = some (key, x))
    (hkey : ¬key.IsText) : v.LocatesAt i (some ⟨[], key⟩) := by
  have hown : v.KeyAt [i] key := (keyAt_cons_of_entries? h).mpr ⟨_, hentry, .inl ⟨rfl, rfl⟩⟩
  refine ⟨[], ⟨hown, hkey, fun other found _ _ => ?_⟩, fun way => ?_⟩
  · cases other with
    | nil => exact .inl rfl
    | cons j other => exact .inr .nil
  · rw [text_eq_ok_iff, spells_cons_of_entries? h]
    constructor
    · rintro ⟨shown, hshown, rfl⟩
      exact ⟨_, hentry, .inl ⟨rfl, shown, hshown, rfl⟩⟩
    · rintro ⟨e, he, ⟨-, shown, hshown, rfl⟩ | ⟨k, rest, hk, -, -⟩⟩
      · cases hentry.symm.trans he
        exact ⟨shown, hshown, rfl⟩
      · cases hentry.symm.trans he
        exact (hkey ⟨k, hk⟩).elim

/-- Under a key that is a text, the search goes into the value of the entry. -/
theorem locatesAt_value {k : Text} (h : v.entries? = some entries)
    (hentry : entries[i]? = some (text k, x)) (hx : x.Locates x.nonTextKey?) :
    v.LocatesAt i (x.nonTextKey?.map (KeyPath.under (.key k))) := by
  refine locatesAt_of_step hx (fun place key hkey => ?_) (fun place key hkey => ?_)
    (fun place way hne => ?_)
  · obtain ⟨e, he, ⟨-, rfl⟩ | hrest⟩ := (keyAt_cons_of_entries? h).mp hkey
    · cases hentry.symm.trans he
      exact .inl ⟨k, rfl⟩
    · cases hentry.symm.trans he
      exact .inr hrest
  · exact (keyAt_cons_of_entries? h).mpr ⟨_, hentry, .inr hkey⟩
  · rw [spells_cons_of_entries? h]
    constructor
    · rintro ⟨e, he, ⟨rfl, -⟩ | ⟨k', rest, hk, hrest, rfl⟩⟩
      · exact (hne rfl).elim
      · cases hentry.symm.trans he
        cases hk
        exact ⟨rest, hrest, rfl⟩
    · rintro ⟨rest, hrest, rfl⟩
      exact ⟨_, hentry, .inr ⟨k, rest, rfl, hrest, rfl⟩⟩

theorem locatesAt_entry (h : v.entries? = some entries)
    (ih : ∀ x ∈ v.searched, x.Locates x.nonTextKey?) (i : Nat) :
    v.LocatesAt i (entries[i]?.bind entryKey?) := by
  cases hentry : entries[i]? with
  | none =>
      intro place key hkey
      obtain ⟨e, he, -⟩ := (keyAt_cons_of_entries? h).mp hkey
      cases hentry.symm.trans he
  | some e =>
      obtain ⟨key, x⟩ := e
      have hx : x ∈ v.searched := by
        rw [searched_of_entries? h]
        exact List.mem_map_of_mem (List.mem_of_getElem? hentry)
      rw [Option.bind_some]
      cases key with
      | text k => exact locatesAt_value h hentry (ih x hx)
      | _ => exact locatesAt_own h hentry nofun

theorem locatesAt_item (h : v.sequence? = some items)
    (ih : ∀ x ∈ v.searched, x.Locates x.nonTextKey?) (i : Nat) :
    v.LocatesAt i (items[i]?.bind fun x => itemKey? x i) := by
  cases hitem : items[i]? with
  | none =>
      intro place key hkey
      obtain ⟨x, hx, -⟩ := (keyAt_cons_of_sequence? h).mp hkey
      cases hitem.symm.trans hx
  | some x =>
      have hx := ih x (by rw [searched_of_sequence? h]; exact List.mem_of_getElem? hitem)
      refine locatesAt_of_step hx (fun place key hkey => ?_) (fun place key hkey => ?_)
        (fun place way _ => ?_)
      · obtain ⟨y, hy, hrest⟩ := (keyAt_cons_of_sequence? h).mp hkey
        cases hitem.symm.trans hy
        exact .inr hrest
      · exact (keyAt_cons_of_sequence? h).mpr ⟨x, hitem, hkey⟩
      · rw [spells_cons_of_sequence? h]
        constructor
        · rintro ⟨y, rest, hy, hrest, rfl⟩
          cases hitem.symm.trans hy
          exact ⟨rest, hrest, rfl⟩
        · rintro ⟨rest, hrest, rfl⟩
          exact ⟨x, rest, hitem, hrest, rfl⟩

theorem nonTextKey?_of_entries? (h : v.entries? = some entries) :
    v.nonTextKey? = entries.findSome? entryKey? := by
  rw [← nonTextKeyOfEntries?_eq]
  cases v with
  | map | view => cases h; rw [nonTextKey?]
  | _ => cases h

theorem nonTextKey?_of_sequence? (h : v.sequence? = some items) :
    v.nonTextKey? = items.zipIdx.findSome? fun p => itemKey? p.1 p.2 := by
  rw [← nonTextKeyOfItems?_eq]
  cases v with
  | list | tuple => cases h; rw [nonTextKey?]
  | _ => cases h

/-- In other values there is nothing to search. -/
theorem locates_of_leaf (hentries : v.entries? = none) (hitems : v.sequence? = none) :
    v.Locates v.nonTextKey? := by
  have hsearch : v.nonTextKey? = none := by
    cases v with
    | map | view => cases hentries
    | list | tuple => cases hitems
    | _ => rfl
  rw [hsearch]
  rintro place key (⟨hsome, -⟩ | ⟨hx, -⟩)
  · cases hentries.symm.trans hsome
  · simp [searched, hentries, hitems] at hx

/-- The search finds what it should in every value. -/
theorem locates_nonTextKey? (v : Value) : v.Locates v.nonTextKey? := by
  induction v using searched_induction with
  | parts v ih =>
      cases hentries : v.entries? with
      | some entries =>
          rw [nonTextKey?_of_entries? hentries]
          exact locates_of_first (locatesAt_entry hentries ih) (findSome?_cases entries)
      | none =>
          cases hitems : v.sequence? with
          | some items =>
              rw [nonTextKey?_of_sequence? hitems]
              refine locates_of_first (locatesAt_item hitems ih) ?_
              have hcases := findSome?_cases (f := fun p => itemKey? p.1 p.2) items.zipIdx
              simpa [List.getElem?_zipIdx, Option.bind_map, Function.comp_def] using hcases
          | none => exact locates_of_leaf hentries hitems

/-! ## The search as a walk -/

/-- A finding, or else what the search goes on with. The empty text counts as no finding. -/
def findingOr (next : Except Fault (Option Text)) : Option Text → Except Fault (Option Text)
  | some (c :: finding) => .ok (some (c :: finding))
  | _ => next

mutual

/-- The search as a walk that takes the way so far along as a text, and goes on wherever it is given
no text or an empty one. -/
def walkKeys (way : Text) : Value → Except Fault (Option Text)
  | map _ entries => walkKeysOfEntries way entries
  | view entries => walkKeysOfEntries way entries
  | list _ items => walkKeysOfItems way 0 items
  | tuple items => walkKeysOfItems way 0 items
  | _ => .ok none

def walkKeysOfEntries (way : Text) : List (Value × Value) → Except Fault (Option Text)
  | [] => .ok none
  | (text k, v) :: rest =>
    walkKeys (way ++ "." ++ k) v >>= findingOr (walkKeysOfEntries way rest)
  | (k, _) :: _ => do return some (way ++ "[" ++ (← k.quoted) ++ "]")

def walkKeysOfItems (way : Text) (index : Nat) : List Value → Except Fault (Option Text)
  | [] => .ok none
  | v :: rest =>
    walkKeys (way ++ "[" ++ Text.ofNat index ++ "]") v >>=
      findingOr (walkKeysOfItems way (index + 1) rest)

end

/-- The text of what a search found, after the way to where it began. -/
def finding (way : Text) : Option KeyPath → Except Fault (Option Text)
  | none => .ok none
  | some path => path.text.map fun rest => some (way ++ rest)

theorem ne_nil_of_text (h : path.text = .ok way) : way ≠ [] := by
  obtain ⟨shown, -, rfl⟩ := text_eq_ok_iff.mp h
  simp [Text.ofString, Text.ofChars]

theorem finding_eq_ok_none_iff {outcome : Option KeyPath} :
    finding way outcome = .ok none ↔ outcome = none := by
  cases outcome <;> simp [finding, Fault.map_eq_ok_iff]

theorem finding_eq_ok_some_iff {outcome : Option KeyPath} {t : Text} :
    finding way outcome = .ok (some t) ↔
      ∃ path rest, outcome = some path ∧ path.text = .ok rest ∧ t = way ++ rest := by
  cases outcome with
  | none => simp [finding]
  | some path => simp [finding, Fault.map_eq_ok_iff, eq_comm (a := t)]

theorem finding_eq_error_iff {outcome : Option KeyPath} {f : Fault} :
    finding way outcome = .error f ↔
      f = .badValue ∧ ∃ path, outcome = some path ∧ path.key.ShowsLongInt := by
  cases outcome <;> simp [finding, Fault.map_eq_error_iff, text_eq_error_iff]

/-- What a part yields under a way that is longer by a step is what it yields from there, and the
walk goes on exactly if it yields nothing: no finding is taken for none. -/
theorem finding_step (way : Text) (step : PathStep) (outcome next : Option KeyPath) :
    finding (way ++ step.text) outcome >>= findingOr (finding way next) =
      finding way ((outcome.map (KeyPath.under step)).or next) := by
  cases outcome with
  | none => rfl
  | some path =>
      rw [Option.map_some, Option.some_or, finding, finding]
      cases htext : path.text with
      | error f =>
          have hunder : (path.under step).text = .error f := by
            rw [text_eq_error_iff] at htext ⊢
            exact htext
          rw [hunder]
          rfl
      | ok rest =>
          have hunder : (path.under step).text = .ok (step.text ++ rest) :=
            text_under_eq_ok_iff.mpr ⟨rest, htext, rfl⟩
          rw [hunder]
          obtain ⟨c, t, ht⟩ := List.exists_cons_of_ne_nil
            (List.append_ne_nil_of_right_ne_nil (way ++ step.text) (ne_nil_of_text htext))
          change findingOr _ (some (way ++ step.text ++ rest)) = _
          rw [ht, findingOr, ← ht, List.append_assoc]
          rfl

theorem finding_own (way : Text) (key : Value) :
    (do return some (way ++ "[" ++ (← key.quoted) ++ "]")) = finding way (some ⟨[], key⟩) := by
  rw [finding, KeyPath.text]
  cases key.quoted with
  | error f => rfl
  | ok shown => exact congrArg (fun t => Except.ok (some t)) (by simp)

theorem walkKeysOfEntries_eq {way : Text}
    (ih : ∀ e ∈ entries, ∀ way, e.2.walkKeys way = finding way e.2.nonTextKey?) :
    walkKeysOfEntries way entries = finding way (nonTextKeyOfEntries? entries) := by
  induction entries with
  | nil => rfl
  | cons e es ihentries =>
      obtain ⟨k, x⟩ := e
      have hrest := ihentries fun f hf => ih f (List.mem_cons_of_mem _ hf)
      cases k with
      | text k =>
          rw [walkKeysOfEntries, hrest, ih _ List.mem_cons_self, List.append_assoc,
            nonTextKeyOfEntries?]
          refine (finding_step way (.key k) _ _).trans ?_
          cases x.nonTextKey? <;> rfl
      | _ => exact finding_own way _

theorem walkKeysOfItems_eq {way : Text} {index : Nat}
    (ih : ∀ x ∈ items, ∀ way, x.walkKeys way = finding way x.nonTextKey?) :
    walkKeysOfItems way index items = finding way (nonTextKeyOfItems? index items) := by
  induction items generalizing index with
  | nil => rfl
  | cons x xs ihitems =>
      have hrest : walkKeysOfItems way (index + 1) xs =
          finding way (nonTextKeyOfItems? (index + 1) xs) :=
        ihitems fun y hy => ih y (List.mem_cons_of_mem _ hy)
      rw [walkKeysOfItems, hrest, ih x List.mem_cons_self, nonTextKeyOfItems?]
      simp only [List.append_assoc]
      refine (finding_step way (.index index) _ _).trans ?_
      cases x.nonTextKey? <;> rfl

/-- The walk comes to what the search finds. -/
theorem walkKeys_eq (v : Value) (way : Text) : v.walkKeys way = finding way v.nonTextKey? := by
  induction v generalizing way with
  | list mark items ih => rw [walkKeys, nonTextKey?, walkKeysOfItems_eq ih]
  | tuple items ih => rw [walkKeys, nonTextKey?, walkKeysOfItems_eq ih]
  | map mark entries ih =>
      rw [walkKeys, nonTextKey?, walkKeysOfEntries_eq fun e he => (ih e he).2]
  | view entries ih => rw [walkKeys, nonTextKey?, walkKeysOfEntries_eq fun e he => (ih e he).2]
  | _ => rfl

/-! ## The first key that is no text -/

theorem first_of_nonTextKey? (h : v.nonTextKey? = some path) :
    ∃ place, v.FirstNonText place path.key ∧ ∀ way, path.text = .ok way ↔ v.Spells place way := by
  have hlocates := v.locates_nonTextKey?
  rw [h] at hlocates
  exact hlocates

theorem exists_nonTextKey?_of_first (h : v.FirstNonText place key) :
    ∃ path, v.nonTextKey? = some path ∧ path.key = key ∧
      ∀ way, path.text = .ok way ↔ v.Spells place way := by
  cases hfound : v.nonTextKey? with
  | none =>
      have hlocates := v.locates_nonTextKey?
      rw [hfound] at hlocates
      exact (h.nonText (hlocates place key h.keyAt)).elim
  | some path =>
      obtain ⟨other, hother, hway⟩ := first_of_nonTextKey? hfound
      obtain ⟨rfl, rfl⟩ := h.unique hother
      exact ⟨path, rfl, rfl, hway⟩

theorem nonTextKey?_eq_none_iff : v.nonTextKey? = none ↔
    ∀ part entries, v.Holds part → part.entries? = some entries → ∀ e ∈ entries, e.1.IsText := by
  constructor
  · intro hnone part entries hpart hentries e he
    obtain ⟨place, hkey⟩ := exists_keyAt_iff.mpr
      ⟨part, entries, hpart, hentries, List.mem_map_of_mem he⟩
    have hlocates := v.locates_nonTextKey?
    rw [hnone] at hlocates
    exact hlocates place e.1 hkey
  · intro hall
    cases hfound : v.nonTextKey? with
    | none => rfl
    | some path =>
        obtain ⟨place, hfirst, -⟩ := first_of_nonTextKey? hfound
        obtain ⟨part, entries, hpart, hentries, hkey⟩ := exists_keyAt_iff.mp ⟨place, hfirst.keyAt⟩
        obtain ⟨e, he, heq⟩ := List.mem_map.mp hkey
        exact (hfirst.nonText (heq ▸ hall part entries hpart hentries e he)).elim

/-- The walk over a value comes to what the search finds. It yields nothing exactly if all keys of
mappings in the value are texts. What it yields is never empty, wherever it began, and spells the
way to the first key that is no text; only an integer in that key that is too long to be shown makes
it fail. A mapping for which it yields a text is refused with that text. -/
theorem walkKeys_first (v : Value) :
    (∀ way, v.walkKeys way = finding way v.nonTextKey?) ∧
    (v.walkKeys [] = .ok none ↔ ∀ part entries, v.Holds part → part.entries? = some entries →
      ∀ e ∈ entries, e.1.IsText) ∧
    (∀ way t, v.walkKeys way = .ok (some t) → t ≠ []) ∧
    (∀ t, v.walkKeys [] = .ok (some t) ↔
      ∃ place key, v.FirstNonText place key ∧ v.Spells place t) ∧
    (∀ f, v.walkKeys [] = .error f ↔
      f = .badValue ∧ ∃ place key, v.FirstNonText place key ∧ key.ShowsLongInt) ∧
    ∀ refuse t, v.isMapping = true → v.walkKeys [] = .ok (some t) →
      manifestPayload refuse v = .error (refuse (.nonTextKey t)) := by
  refine ⟨v.walkKeys_eq, ?_, fun way t h => ?_, fun t => ?_, fun f => ?_,
    fun refuse t hmapping h => ?_⟩
  · rw [walkKeys_eq, finding_eq_ok_none_iff, nonTextKey?_eq_none_iff]
  · rw [walkKeys_eq, finding_eq_ok_some_iff] at h
    obtain ⟨path, rest, -, hrest, rfl⟩ := h
    exact List.append_ne_nil_of_right_ne_nil _ (ne_nil_of_text hrest)
  · rw [walkKeys_eq, finding_eq_ok_some_iff]
    constructor
    · rintro ⟨path, rest, hfound, hrest, rfl⟩
      obtain ⟨place, hfirst, hway⟩ := first_of_nonTextKey? hfound
      exact ⟨place, _, hfirst, (hway _).mp hrest⟩
    · rintro ⟨place, key, hfirst, hspells⟩
      obtain ⟨path, hfound, -, hway⟩ := exists_nonTextKey?_of_first hfirst
      exact ⟨path, t, hfound, (hway t).mpr hspells, rfl⟩
  · rw [walkKeys_eq, finding_eq_error_iff]
    refine and_congr_right fun _ => ⟨?_, ?_⟩
    · rintro ⟨path, hfound, hlong⟩
      obtain ⟨place, hfirst, -⟩ := first_of_nonTextKey? hfound
      exact ⟨place, _, hfirst, hlong⟩
    · rintro ⟨place, key, hfirst, hlong⟩
      obtain ⟨path, hfound, rfl, -⟩ := exists_nonTextKey?_of_first hfirst
      exact ⟨path, hfound, hlong⟩
  · rw [walkKeys_eq, finding_eq_ok_some_iff] at h
    obtain ⟨path, rest, hfound, hrest, rfl⟩ := h
    rw [manifestPayload_of_isMapping hmapping, hfound]
    simp only [hrest]
    rfl

/-- The key of a truth value deep in the first entry is found before the number that is a later
key, and the refusal tells where it is. -/
theorem walkKeys_first_nested :
    let child : Value := .ofEntries
      [("metadata", .ofEntries [("annotations",
        .tuple [.view [], .ofEntries [("a", .null), (.bool true, .null)]])]),
        (.int 1, .null)]
    let t : Text := ".metadata.annotations[1][True]"
    child.walkKeys [] = .ok (some t) ∧ t ≠ [] ∧
      (∃ place key, child.FirstNonText place key ∧ child.Spells place t) ∧
      child.payload "w" (some 0) = .error (.serialization (.nonTextKey t) "w" (some 0)) := by
  intro child t
  have hwalk : child.walkKeys [] = .ok (some t) := by rfl
  obtain ⟨-, -, hne, hfirst, -, hrefused⟩ := walkKeys_first child
  refine ⟨hwalk, hne [] t hwalk, (hfirst t).mp hwalk, ?_⟩
  rw [payload_of_rendered? rfl]
  exact hrefused _ t rfl hwalk

end Value

end ManifestChain
