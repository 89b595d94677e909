import ManifestChain.Text.Basic

/-!
# Trees of files

A tree holds files and directories with named entries. There are no links, so where the entries of
each directory have distinct names, every place has one list of names that leads to it. Whatever is
put into such a tree leaves the names distinct.
-/

namespace ManifestChain

/-- What stands at a place: a file with its bytes, or a directory with its named entries. -/
inductive FileTree where
  | file (content : List UInt8)
  | directory (entries : List (Text × FileTree))

namespace FileTree

def named? (name : Text) : List (Text × FileTree) → Option FileTree
  | [] => none
  | (n, t) :: rest => if n = name then some t else named? name rest

/-- What stands where a list of names leads. -/
def at? : FileTree → List Text → Option FileTree
  | t, [] => some t
  | file _, _ :: _ => none
  | directory entries, name :: rest => (named? name entries).bind fun t => at? t rest

/-- The entries with the one of a name changed; a missing one is changed from an empty directory. -/
def changeEntry (name : Text) (change : FileTree → FileTree) :
    List (Text × FileTree) → List (Text × FileTree)
  | [] => [(name, change (directory []))]
  | (n, t) :: rest =>
    if n = name then (n, change t) :: rest else (n, t) :: changeEntry name change rest

/-- The tree with something put where the names lead. Directories on the way are made where they are
missing; a file on the way stays as it is. -/
def put : FileTree → List Text → FileTree → FileTree
  | _, [], new => new
  | file content, _ :: _, _ => file content
  | directory entries, name :: rest, new =>
    directory (changeEntry name (fun t => put t rest new) entries)

/-- The tree with a directory where the names lead, unless something stands there already. -/
def makeDirectory (t : FileTree) (names : List Text) : FileTree :=
  if (t.at? names).isSome then t else t.put names (directory [])

mutual

/-- All that lies below a place, with the names that lead to it from there. -/
def descendants : FileTree → List (List Text × FileTree)
  | file _ => []
  | directory entries => entryDescendants entries

/-- The entries themselves and all that lies below them. -/
def entryDescendants : List (Text × FileTree) → List (List Text × FileTree)
  | [] => []
  | (name, t) :: rest =>
    ([name], t) :: (descendants t).map (fun found => (name :: found.1, found.2)) ++
      entryDescendants rest

end

/-! ## Distinct names -/

/-- A tree in which the entries of each directory have distinct names. -/
inductive Distinct : FileTree → Prop
  | file (content : List UInt8) : Distinct (file content)
  | directory {entries : List (Text × FileTree)} (names : (entries.map Prod.fst).Nodup)
      (below : ∀ e ∈ entries, Distinct e.2) : Distinct (directory entries)

theorem distinct_directory_iff {entries : List (Text × FileTree)} :
    (directory entries).Distinct ↔ (entries.map Prod.fst).Nodup ∧ ∀ e ∈ entries, e.2.Distinct := by
  constructor
  · intro h
    cases h with
    | directory names below => exact ⟨names, below⟩
  · rintro ⟨names, below⟩
    exact .directory names below

mutual

/-- Whether the entries of each directory have distinct names. -/
def isDistinct : FileTree → Bool
  | file _ => true
  | directory entries => decide (entries.map Prod.fst).Nodup && areDistinct entries

def areDistinct : List (Text × FileTree) → Bool
  | [] => true
  | (_, t) :: rest => isDistinct t && areDistinct rest

end

mutual

theorem isDistinct_iff : (t : FileTree) → (t.isDistinct = true ↔ t.Distinct)
  | file content => iff_of_true rfl (.file content)
  | directory entries => by
    rw [isDistinct, Bool.and_eq_true, decide_eq_true_iff, areDistinct_iff, distinct_directory_iff]

theorem areDistinct_iff : (entries : List (Text × FileTree)) →
    (areDistinct entries = true ↔ ∀ e ∈ entries, e.2.Distinct)
  | [] => iff_of_true rfl fun _ h => nomatch h
  | (_, t) :: rest => by
    rw [areDistinct, Bool.and_eq_true, isDistinct_iff, areDistinct_iff, List.forall_mem_cons]

end

instance : DecidablePred Distinct := fun t => decidable_of_iff _ t.isDistinct_iff

variable {name other : Text} {entries : List (Text × FileTree)} {change : FileTree → FileTree}
  {t u : FileTree}

theorem mem_names_changeEntry : other ∈ (changeEntry name change entries).map Prod.fst ↔
    other = name ∨ other ∈ entries.map Prod.fst := by
  induction entries with
  | nil => simp [changeEntry]
  | cons entry rest ih =>
      rw [changeEntry]
      split
      next heq => simp [heq]
      next hne =>
        rw [List.map_cons, List.mem_cons, ih, List.map_cons, List.mem_cons]
        exact or_left_comm

namespace Distinct

/-- A change of one entry keeps the names distinct. -/
theorem changeEntry (h : (FileTree.directory entries).Distinct)
    (hchange : ∀ t, t.Distinct → (change t).Distinct) :
    (FileTree.directory (changeEntry name change entries)).Distinct := by
  obtain ⟨hnames, hbelow⟩ := distinct_directory_iff.mp h
  induction entries with
  | nil =>
      refine .directory (by simp [FileTree.changeEntry]) fun e he => ?_
      rw [List.mem_singleton.mp he]
      exact hchange _ (.directory List.nodup_nil hbelow)
  | cons entry rest ih =>
      obtain ⟨hnot, hrest⟩ := List.nodup_cons.mp hnames
      obtain ⟨hentry, hbelow⟩ := List.forall_mem_cons.mp hbelow
      rw [FileTree.changeEntry]
      split
      next heq => exact .directory hnames (List.forall_mem_cons.mpr ⟨hchange _ hentry, hbelow⟩)
      next hne =>
        obtain ⟨hnames', hbelow'⟩ :=
          distinct_directory_iff.mp (ih (.directory hrest hbelow) hrest hbelow)
        refine .directory (List.nodup_cons.mpr ⟨?_, hnames'⟩)
          (List.forall_mem_cons.mpr ⟨hentry, hbelow'⟩)
        rw [mem_names_changeEntry, not_or]
        exact ⟨hne, hnot⟩

/-- What is put into a tree with distinct names leaves them distinct. -/
theorem put (h : t.Distinct) (hu : u.Distinct) (names : List Text) : (t.put names u).Distinct := by
  induction names generalizing t with
  | nil =>
      rw [FileTree.put]
      exact hu
  | cons name names ih =>
      cases t with
      | file content => exact h
      | directory entries => exact h.changeEntry fun t ht => ih ht

theorem empty : (FileTree.directory []).Distinct :=
  .directory List.nodup_nil fun _ h => nomatch h

theorem makeDirectory (h : t.Distinct) (names : List Text) : (t.makeDirectory names).Distinct := by
  rw [FileTree.makeDirectory]
  split
  next => exact h
  next => exact h.put empty names

end Distinct

end FileTree

end ManifestChain
