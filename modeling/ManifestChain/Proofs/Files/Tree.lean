import ManifestChain.Files.Tree

/-!
# Putting files into trees

A file that is put under a name that has room for it stands there. Every other file stays as it is,
and directories stay where they are.
-/

namespace ManifestChain

namespace FileTree

variable {name other : Text} {entries : List (Text × FileTree)} {change : FileTree → FileTree}

@[simp] theorem named?_changeEntry_self (name : Text) (change : FileTree → FileTree)
    (entries : List (Text × FileTree)) : named? name (changeEntry name change entries) =
      some (change ((named? name entries).getD (directory []))) := by
  induction entries with
  | nil => simp [changeEntry, named?]
  | cons entry rest ih =>
      obtain ⟨n, t⟩ := entry
      by_cases hn : n = name
      · simp [changeEntry, named?, hn]
      · simp [changeEntry, named?, hn, ih]

theorem named?_changeEntry_of_ne (h : name ≠ other) :
    named? other (changeEntry name change entries) = named? other entries := by
  induction entries with
  | nil => simp [changeEntry, named?, h]
  | cons entry rest ih =>
      obtain ⟨n, t⟩ := entry
      by_cases hn : n = name
      · subst hn
        simp [changeEntry, named?, h]
      · simp [changeEntry, named?, hn, ih]

theorem changeEntry_changeEntry (name : Text) (first second : FileTree → FileTree)
    (entries : List (Text × FileTree)) :
    changeEntry name second (changeEntry name first entries) =
      changeEntry name (fun t => second (first t)) entries := by
  induction entries with
  | nil => simp [changeEntry]
  | cons entry rest ih =>
      obtain ⟨n, t⟩ := entry
      by_cases hn : n = name
      · simp [changeEntry, hn]
      · simp [changeEntry, hn, ih]

/-- What is put last where some names lead stays there. -/
theorem put_put (t : FileTree) (names : List Text) (first second : FileTree) :
    (t.put names first).put names second = t.put names second := by
  induction names generalizing t with
  | nil => cases t <;> rfl
  | cons name names ih =>
      cases t with
      | file content => rfl
      | directory entries =>
          rw [put, put, put, changeEntry_changeEntry]
          simp only [ih]

theorem at?_append (t : FileTree) (names rest : List Text) :
    t.at? (names ++ rest) = (t.at? names).bind fun u => u.at? rest := by
  induction names generalizing t with
  | nil => rw [List.nil_append, at?, Option.bind_some]
  | cons name names ih =>
      cases t with
      | file content => rfl
      | directory entries =>
          rw [List.cons_append, at?, at?, Option.bind_assoc]
          simp only [ih]

theorem at?_concat {t : FileTree} {parent : List Text}
    (h : t.at? parent = some (directory entries)) (name : Text) :
    t.at? (parent ++ [name]) = named? name entries := by
  rw [at?_append, h, Option.bind_some, at?]
  cases named? name entries <;> rfl

/-- What lies on the way to a place is a directory. -/
theorem exists_of_at?_cons {t u : FileTree} {names : List Text}
    (h : t.at? (name :: names) = some u) :
    ∃ es below, t = directory es ∧ named? name es = some below ∧ below.at? names = some u := by
  cases t with
  | file content => cases h
  | directory es =>
      obtain ⟨below, hbelow, h⟩ := Option.bind_eq_some_iff.mp h
      exact ⟨es, below, rfl, hbelow, h⟩

/-! ## Putting a file into a directory -/

/-- A name in a directory at which a file can be put: no directory has it. -/
structure HasRoom (t : FileTree) (parent : List Text) (name : Text) : Prop where
  around : ∃ entries, t.at? parent = some (directory entries)
  free : ∀ entries, t.at? (parent ++ [name]) ≠ some (directory entries)

namespace HasRoom

variable {t : FileTree} {parent : List Text} {content : List UInt8}

/-- The way to a name with room for a file, step by step. -/
theorem below {first : Text} (h : t.HasRoom (first :: parent) name) :
    ∃ es below, t = directory es ∧ named? first es = some below ∧ below.HasRoom parent name := by
  obtain ⟨entries, hentries⟩ := h.around
  obtain ⟨es, below, rfl, hbelow, hparent⟩ := exists_of_at?_cons hentries
  refine ⟨es, below, rfl, hbelow, ⟨entries, hparent⟩, fun entries hname => ?_⟩
  refine h.free entries ?_
  rw [List.cons_append, at?, hbelow, Option.bind_some, hname]

theorem at?_put_self (h : t.HasRoom parent name) (new : FileTree) :
    (t.put (parent ++ [name]) new).at? (parent ++ [name]) = some new := by
  induction parent generalizing t with
  | nil =>
      obtain ⟨entries, hentries⟩ := h.around
      cases hentries
      simp [put, at?]
  | cons first parent ih =>
      obtain ⟨es, below, rfl, hbelow, h⟩ := h.below
      simp [put, at?, hbelow, ih h]

/-- A file that is put leaves every other place as it is, but for directories on the way to it. -/
theorem at?_put_of_ne (h : t.HasRoom parent name) {place : List Text}
    (hne : place ≠ parent ++ [name]) :
    (t.put (parent ++ [name]) (file content)).at? place = t.at? place ∨
      (∃ es, t.at? place = some (directory es)) ∧
        ∃ es, (t.put (parent ++ [name]) (file content)).at? place = some (directory es) := by
  induction parent generalizing t place with
  | nil =>
      obtain ⟨entries, hentries⟩ := h.around
      cases hentries
      cases place with
      | nil => exact .inr ⟨⟨_, rfl⟩, _, rfl⟩
      | cons first place =>
          left
          by_cases hfirst : name = first
          · subst hfirst
            have hroom := h.free
            cases place with
            | nil => exact (hne rfl).elim
            | cons second place =>
                simp only [List.nil_append, at?, put, named?_changeEntry_self,
                  Option.bind_some] at hroom ⊢
                -- What is no directory has nothing below it.
                cases hnamed : named? name entries with
                | none => rfl
                | some u =>
                    cases u with
                    | file c => rfl
                    | directory es => exact (hroom es (by rw [hnamed]; rfl)).elim
          · simp [put, at?, named?_changeEntry_of_ne hfirst]
  | cons first parent ih =>
      obtain ⟨es, below, rfl, hbelow, h⟩ := h.below
      cases place with
      | nil => exact .inr ⟨⟨_, rfl⟩, _, rfl⟩
      | cons second place =>
          -- The two ways go on together or part here.
          by_cases hfirst : first = second
          · subst hfirst
            have hne' : place ≠ parent ++ [name] := fun heq => hne (by rw [heq]; rfl)
            simpa [put, at?, hbelow] using ih h hne'
          · left
            simp [put, at?, named?_changeEntry_of_ne hfirst]

/-- Other files stay as they are. -/
theorem at?_put_eq_file_iff (h : t.HasRoom parent name) {place : List Text}
    (hne : place ≠ parent ++ [name]) {c : List UInt8} :
    (t.put (parent ++ [name]) (file content)).at? place = some (file c) ↔
      t.at? place = some (file c) := by
  rcases h.at?_put_of_ne hne with heq | ⟨⟨es, hbefore⟩, es', hafter⟩
  · rw [heq]
  · simp [hbefore, hafter]

end HasRoom

/-! ## What is kept -/

/-- A tree that has all that another one has, and has directories where that one has them. -/
structure Keeps (t t' : FileTree) : Prop where
  directories : ∀ place es, t.at? place = some (directory es) →
    ∃ es', t'.at? place = some (directory es')
  places : ∀ place, (t.at? place).isSome = true → (t'.at? place).isSome = true

theorem HasRoom.keeps {t : FileTree} {parent : List Text} (h : t.HasRoom parent name)
    (content : List UInt8) : t.Keeps (t.put (parent ++ [name]) (file content)) where
  directories place es hes := by
    have hne : place ≠ parent ++ [name] := by
      rintro rfl
      exact h.free es hes
    rcases h.at?_put_of_ne hne with heq | ⟨-, hafter⟩
    · exact ⟨es, heq.trans hes⟩
    · exact hafter
  places place hplace := by
    by_cases hne : place = parent ++ [name]
    · rw [hne, h.at?_put_self]
      rfl
    · rcases h.at?_put_of_ne hne with heq | ⟨-, es, hafter⟩
      · rwa [heq]
      · rw [hafter]
        rfl

end FileTree

end ManifestChain
