import Mathlib.Data.List.Nodup
import ManifestChain.Proofs.Files.Disk

/-!
# Directories and the order of their entries

Where the entries of directories have distinct names, a list of names leads to one place at most,
and all that lies below a directory is listed with one path each. The entries may be listed in any
order: the same files stand at the same places, and a path is followed to the same place.
-/

namespace ManifestChain

namespace FileTree

variable {name : Text} {names : List Text} {t u : FileTree} {entries : List (Text × FileTree)}

theorem named?_append (name : Text) (entries rest : List (Text × FileTree)) :
    named? name (entries ++ rest) = (named? name entries).or (named? name rest) := by
  induction entries with
  | nil => rfl
  | cons entry entries ih =>
      rw [List.cons_append, named?, named?, ih]
      split <;> rfl

theorem mem_of_named? (h : named? name entries = some t) : (name, t) ∈ entries := by
  induction entries with
  | nil => cases h
  | cons entry rest ih =>
      rw [named?] at h
      split at h
      next heq =>
        cases h
        rw [← heq]
        exact List.mem_cons_self
      next => exact List.mem_cons_of_mem _ (ih h)

theorem named?_eq_some_iff (h : (entries.map Prod.fst).Nodup) :
    named? name entries = some t ↔ (name, t) ∈ entries := by
  refine ⟨mem_of_named?, fun hmem => ?_⟩
  induction entries with
  | nil => cases hmem
  | cons entry rest ih =>
      obtain ⟨hnot, hrest⟩ := List.nodup_cons.mp h
      rw [named?]
      rcases List.mem_cons.mp hmem with rfl | hmem
      · rw [if_pos rfl]
      · have hne : entry.1 ≠ name := fun heq =>
          hnot (heq ▸ List.mem_map_of_mem (f := Prod.fst) hmem)
        rw [if_neg hne]
        exact ih hrest hmem

theorem Distinct.at? (h : t.Distinct) (hat : t.at? names = some u) : u.Distinct := by
  induction names generalizing t with
  | nil =>
      cases hat
      exact h
  | cons name names ih =>
      obtain ⟨entries, below, rfl, hnamed, hat⟩ := exists_of_at?_cons hat
      cases h with
      | directory _ hbelow => exact ih (hbelow _ (mem_of_named? hnamed)) hat

/-! ## What lies below a place -/

theorem mem_entryDescendants_iff : (names, u) ∈ entryDescendants entries ↔
    ∃ name t rest, (name, t) ∈ entries ∧ names = name :: rest ∧
      (rest = [] ∧ u = t ∨ (rest, u) ∈ t.descendants) := by
  induction entries with
  | nil => simp [entryDescendants]
  | cons entry entries ih =>
      obtain ⟨name, t⟩ := entry
      rw [entryDescendants, List.cons_append, List.mem_cons, List.mem_append, ih]
      constructor
      · rintro (h | h | ⟨other, v, rest, hmem, h⟩)
        · cases h
          exact ⟨name, u, [], List.mem_cons_self, rfl, .inl ⟨rfl, rfl⟩⟩
        · obtain ⟨⟨rest, v⟩, hmem, h⟩ := List.mem_map.mp h
          cases h
          exact ⟨name, t, rest, List.mem_cons_self, rfl, .inr hmem⟩
        · exact ⟨other, v, rest, List.mem_cons_of_mem _ hmem, h⟩
      · rintro ⟨other, v, rest, hmem, rfl, h⟩
        rcases List.mem_cons.mp hmem with heq | hmem
        · cases heq
          rcases h with ⟨rfl, rfl⟩ | hbelow
          · exact .inl rfl
          · exact .inr (.inl (List.mem_map.mpr ⟨(rest, u), hbelow, rfl⟩))
        · exact .inr (.inr ⟨other, v, rest, hmem, rfl, h⟩)

/-- All places but the tree itself lie below it, under the names that lead to them. -/
theorem Distinct.mem_descendants_iff (h : t.Distinct) :
    (names, u) ∈ t.descendants ↔ names ≠ [] ∧ t.at? names = some u := by
  induction h generalizing names with
  | file content => cases names <;> simp [descendants, FileTree.at?]
  | @directory entries hnames _ ih =>
      rw [descendants, mem_entryDescendants_iff]
      constructor
      · rintro ⟨name, t, rest, hmem, rfl, h⟩
        refine ⟨List.cons_ne_nil _ _, ?_⟩
        rw [FileTree.at?, (named?_eq_some_iff hnames).mpr hmem, Option.bind_some]
        rcases h with ⟨rfl, rfl⟩ | hbelow
        · rfl
        · exact ((ih _ hmem).mp hbelow).2
      · rintro ⟨hne, hat⟩
        obtain ⟨name, rest, rfl⟩ := List.exists_cons_of_ne_nil hne
        obtain ⟨t, hnamed, hat⟩ := Option.bind_eq_some_iff.mp hat
        have hmem := mem_of_named? hnamed
        refine ⟨name, t, rest, hmem, rfl, ?_⟩
        by_cases hrest : rest = []
        · subst hrest
          cases hat
          exact .inl ⟨rfl, rfl⟩
        · exact .inr ((ih _ hmem).mpr ⟨hrest, hat⟩)

theorem map_fst_entryDescendants (entries : List (Text × FileTree)) :
    (entryDescendants entries).map Prod.fst =
      entries.flatMap fun e => [e.1] :: (e.2.descendants.map Prod.fst).map (e.1 :: ·) := by
  induction entries with
  | nil => rfl
  | cons entry entries ih =>
      obtain ⟨name, t⟩ := entry
      rw [entryDescendants, List.map_append, ih, List.flatMap_cons, List.map_cons, List.map_map,
        List.map_map]
      rfl

/-- Nothing is listed twice. -/
theorem Distinct.nodup_descendants (h : t.Distinct) : (t.descendants.map Prod.fst).Nodup := by
  induction h with
  | file content => exact List.nodup_nil
  | @directory entries hnames hbelow ih =>
      rw [descendants, map_fst_entryDescendants, List.nodup_flatMap]
      constructor
      · intro entry hentry
        refine List.nodup_cons.mpr ⟨fun hmem => ?_, (ih entry hentry).map List.cons_injective⟩
        -- The entry itself has no names below it.
        obtain ⟨rest, hrest, heq⟩ := List.mem_map.mp hmem
        obtain ⟨⟨names, u⟩, hfound, rfl⟩ := List.mem_map.mp hrest
        exact ((hbelow entry hentry).mem_descendants_iff.mp hfound).1 (List.cons.inj heq).2
      · -- The names that lead to two entries and below them differ in the first one.
        have hhead : ∀ (e : Text × FileTree) (paths : List (List Text)),
            ∀ path ∈ [e.1] :: paths.map (e.1 :: ·), path.head? = some e.1 := by simp
        refine (List.pairwise_map.mp hnames).imp fun hne path hleft hright => hne ?_
        exact Option.some.inj ((hhead _ _ path hleft).symm.trans (hhead _ _ path hright))

/-! ## Listing the entries in another order -/

/-- Trees that differ in the order of the entries of their directories only. -/
inductive Relisted : FileTree → FileTree → Prop
  | refl (t : FileTree) : Relisted t t
  | perm {entries entries' : List (Text × FileTree)} (h : entries.Perm entries') :
      Relisted (directory entries) (directory entries')
  | entry {before after : List (Text × FileTree)} {name : Text} {t u : FileTree}
      (h : Relisted t u) : Relisted (directory (before ++ (name, t) :: after))
        (directory (before ++ (name, u) :: after))
  | trans {t u v : FileTree} (first : Relisted t u) (second : Relisted u v) : Relisted t v

/-- The bytes of a file. -/
def content? : FileTree → Option (List UInt8)
  | file content => some content
  | directory _ => none

/-- Trees with the same files, and with directories at the same places. -/
def Agree (t u : FileTree) : Prop :=
  ∀ names, (t.at? names).map content? = (u.at? names).map content?

namespace Relisted

theorem distinct (h : t.Relisted u) (ht : t.Distinct) : u.Distinct := by
  induction h with
  | refl t => exact ht
  | perm h =>
      cases ht with
      | directory hnames hbelow =>
          exact .directory ((h.map Prod.fst).nodup_iff.mp hnames) fun e he =>
            hbelow e (h.mem_iff.mpr he)
  | @entry before after name t u _ ih =>
      cases ht with
      | directory hnames hbelow =>
          refine .directory (by simpa using hnames) fun e he => ?_
          simp only [List.mem_append, List.mem_cons] at hbelow he
          rcases he with he | rfl | he
          · exact hbelow e (.inl he)
          · exact ih (hbelow (name, t) (.inr (.inl rfl)))
          · exact hbelow e (.inr (.inr he))
  | trans _ _ ih ih' => exact ih' (ih ht)

theorem agree (h : t.Relisted u) (ht : t.Distinct) : t.Agree u := by
  induction h with
  | refl t => exact fun names => rfl
  | @perm entries entries' h =>
      cases ht with
      | directory hnames hbelow =>
          have hnames' := (h.map Prod.fst).nodup_iff.mp hnames
          have hnamed : ∀ name, named? name entries = named? name entries' := fun name =>
            Option.ext fun t => by
              rw [named?_eq_some_iff hnames, named?_eq_some_iff hnames', h.mem_iff]
          rintro (_ | ⟨name, rest⟩)
          · rfl
          · rw [at?, at?, hnamed]
  | @entry before after name t u _ ih =>
      cases ht with
      | directory hnames hbelow =>
          have hagree := ih (hbelow (name, t) (List.mem_append_right _ List.mem_cons_self))
          rintro (_ | ⟨first, rest⟩)
          · rfl
          · rw [at?, at?, named?_append, named?_append]
            cases named? first before with
            | some v => rfl
            | none =>
                rw [Option.none_or, Option.none_or, named?, named?]
                split
                next => exact hagree rest
                next => rfl
  | trans first _ ih ih' =>
      exact fun names => (ih ht names).trans (ih' (first.distinct ht) names)

end Relisted

namespace Agree

theorem at?_isSome (h : t.Agree u) (names : List Text) :
    (t.at? names).isSome = (u.at? names).isSome := by
  rw [← Option.isSome_map, h names, Option.isSome_map]

/-- What stands at a place of two trees that agree: nothing, the same file, or directories. -/
theorem cases_at? (h : t.Agree u) (names : List Text) :
    (t.at? names = none ∧ u.at? names = none) ∨
      (∃ content, t.at? names = some (file content) ∧ u.at? names = some (file content)) ∨
        ∃ entries entries', t.at? names = some (directory entries) ∧
          u.at? names = some (directory entries') := by
  have hnames := h names
  cases ht : t.at? names with
  | none =>
      rw [ht] at hnames
      exact .inl ⟨rfl, Option.map_eq_none_iff.mp hnames.symm⟩
  | some a =>
      rw [ht] at hnames
      obtain ⟨b, hb, hcontent⟩ := Option.map_eq_some_iff.mp hnames.symm
      rw [hb]
      cases a with
      | file content => cases b with
        | file content' =>
            cases hcontent
            exact .inr (.inl ⟨content, rfl, rfl⟩)
        | directory entries => cases hcontent
      | directory entries => cases b with
        | file content => cases hcontent
        | directory entries' => exact .inr (.inr ⟨entries, entries', rfl, rfl⟩)

theorem below (h : t.Agree u) {names : List Text} {a b : FileTree} (ha : t.at? names = some a)
    (hb : u.at? names = some b) : a.Agree b := by
  intro rest
  have hrest := h (names ++ rest)
  rwa [at?_append, at?_append, ha, hb] at hrest

end Agree

end FileTree

namespace Disk

open FileTree

variable {root root' : FileTree}

/-- Paths lead to the same places in trees that agree. -/
theorem follow_of_agree (h : root.Agree root') (place steps : List Text) :
    follow root place steps = follow root' place steps := by
  induction steps generalizing place with
  | nil => rfl
  | cons step steps ih =>
      rw [follow, follow]
      rcases h.cases_at? place with ⟨hnone, hnone'⟩ | ⟨content, hfile, hfile'⟩ |
        ⟨entries, entries', hdirectory, hdirectory'⟩
      · rw [hnone, hnone']
      · rw [hfile, hfile']
      · have hnamed : (named? step entries).isSome = (named? step entries').isSome := by
          rw [← at?_concat hdirectory, ← at?_concat hdirectory', h.at?_isSome]
        rw [hdirectory, hdirectory']
        simp only [ih, hnamed]

/-- Disks that differ in the order in which the entries of directories are listed. -/
structure Relisted (disk disk' : Disk) : Prop where
  root : disk.root.Relisted disk'.root
  current : disk'.current = disk.current

/-- A path finds places that agree, or cannot be found for the same reason. -/
theorem Relisted.find {disk disk' : Disk} (h : disk.Relisted disk') (path : Text) :
    (∃ t u, disk.find path = .ok t ∧ disk'.find path = .ok u ∧ t.Agree u) ∨
      ∃ e, disk.find path = .error e ∧ disk'.find path = .error e := by
  have hagree := h.root.agree disk.distinct
  simp only [Disk.find, stepsOf, follow_of_agree hagree, h.current]
  cases checkPath path with
  | error e => exact .inr ⟨e, rfl, rfl⟩
  | ok _ =>
      cases follow disk'.root (if path.startsWith "/" then [] else disk.current)
        (path.splitOn '/') with
      | error e => exact .inr ⟨e, rfl, rfl⟩
      | ok place =>
          simp only [bind, Except.bind]
          rcases hagree.cases_at? place with ⟨hnone, hnone'⟩ | ⟨content, hfile, hfile'⟩ |
            ⟨entries, entries', hdirectory, hdirectory'⟩
          · rw [hnone, hnone']
            exact .inr ⟨_, rfl, rfl⟩
          · rw [hfile, hfile']
            exact .inl ⟨_, _, rfl, rfl, hagree.below hfile hfile'⟩
          · rw [hdirectory, hdirectory']
            exact .inl ⟨_, _, rfl, rfl, hagree.below hdirectory hdirectory'⟩

/-- What a path finds is a part of the tree. -/
theorem exists_at?_of_find {disk : Disk} {path : Text} {t : FileTree} (h : disk.find path = .ok t) :
    ∃ place, disk.root.at? place = some t := by
  obtain ⟨_, _, h⟩ := Fault.bind_eq_ok_iff.mp h
  obtain ⟨place, _, h⟩ := Fault.bind_eq_ok_iff.mp h
  split at h
  next u hplace =>
    cases h
    exact ⟨place, hplace⟩
  next => cases h

end Disk

end ManifestChain
