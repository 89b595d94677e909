import Mathlib.Data.List.DropRight
import ManifestChain.Files.Disk
import ManifestChain.Proofs.Fault
import ManifestChain.Proofs.Files.Tree

/-!
# Reading what was written

A file that is written to a path is read back from it. Every other file stays as it is, and a path
that could be followed before leads to the same place.
-/

namespace ManifestChain

namespace Disk

variable {root root' : FileTree} {place found : List Text}

theorem follow_append (root : FileTree) (place steps rest : List Text) :
    follow root place (steps ++ rest) =
      follow root place steps >>= fun middle => follow root middle rest := by
  induction steps generalizing place with
  | nil => rfl
  | cons step steps ih =>
      rw [List.cons_append, follow, follow]
      cases root.at? place with
      | none => rfl
      | some t =>
          cases t with
          | file content => rfl
          | directory entries =>
              simp only [ih]
              split_ifs <;> rfl

/-- A path that can be followed leads to the same place in a tree that keeps all that there is. -/
theorem follow_of_keeps (h : root.Keeps root') {steps : List Text}
    (hfollow : follow root place steps = .ok found) : follow root' place steps = .ok found := by
  induction steps generalizing place with
  | nil => exact hfollow
  | cons step steps ih =>
      rw [follow] at hfollow ⊢
      split at hfollow
      next => cases hfollow
      next => cases hfollow
      next entries hplace =>
        obtain ⟨entries', hplace'⟩ := h.directories _ _ hplace
        have hnamed : (FileTree.named? step entries).isSome = true →
            (FileTree.named? step entries').isSome = true := by
          rw [← FileTree.at?_concat hplace, ← FileTree.at?_concat hplace']
          exact h.places _
        rw [hplace']
        simp only
        split at hfollow
        next hstay => rw [if_pos hstay]; exact ih hfollow
        next hmove =>
          rw [if_neg hmove]
          split at hfollow
          next hup => rw [if_pos hup]; exact ih hfollow
          next hdown =>
            rw [if_neg hdown]
            split at hfollow
            next => cases hfollow
            next hshort =>
              rw [if_neg hshort]
              split at hfollow
              next hstep => rw [if_pos (hnamed hstep)]; exact ih hfollow
              next => cases hfollow

/-- What a path says of a file that can be written by it: its directory is there and has room under
the name in which the path ends. -/
structure Allots (disk : Disk) (path : Text) (parent : List Text) (name : Text) : Prop where
  checked : checkPath path = .ok ()
  way : ∃ before, (disk.stepsOf path).2 = before ++ [name] ∧
    follow disk.root (disk.stepsOf path).1 before = .ok parent
  named : name ≠ [] ∧ name ≠ Text.ofString "." ∧ name ≠ Text.ofString ".." ∧ isLongName name = false
  room : disk.root.HasRoom parent name

variable {disk : Disk} {path : Text}

theorem withoutTrailing_eq (steps : List Text) :
    withoutTrailing steps = steps.rdropWhile List.isEmpty := rfl

theorem withoutTrailing_eq_self {steps : List Text}
    (h : ¬(withoutTrailing steps).length < steps.length) : withoutTrailing steps = steps :=
  (List.rdropWhile_prefix List.isEmpty steps).eq_of_length_le (Nat.not_lt.mp h)

theorem ne_nil_of_withoutTrailing {steps before : List Text} {name : Text}
    (h : withoutTrailing steps = before ++ [name]) : name ≠ [] := by
  rw [withoutTrailing_eq] at h
  have hlast := List.rdropWhile_last_not List.isEmpty steps (by rw [h]; simp)
  simpa [h] using hlast

/-- A step in place is made in a directory only. -/
theorem follow_dot_eq_ok {root : FileTree} {place found : List Text}
    (h : follow root place [Text.ofString "."] = .ok found) :
    found = place ∧ ∃ entries, root.at? place = some (.directory entries) := by
  rw [follow] at h
  split at h
  next => cases h
  next => cases h
  next entries hplace =>
    rw [if_pos (.inr rfl)] at h
    cases h
    exact ⟨rfl, entries, hplace⟩

theorem allots_of_placeToWrite (h : disk.placeToWrite path = .ok place) :
    ∃ parent name, place = parent ++ [name] ∧ disk.Allots path parent name := by
  obtain ⟨_, hcheck, h⟩ := Fault.bind_eq_ok_iff.mp h
  simp only at h
  split at h
  next => cases h
  next name hlast =>
    obtain ⟨before, hnamed⟩ := List.getLast?_eq_some_iff.mp hlast
    obtain ⟨parent, hparent, h⟩ := Fault.bind_eq_ok_iff.mp h
    rw [hnamed, List.dropLast_concat, follow_append] at hparent
    obtain ⟨found, hfound, hdot⟩ := Fault.bind_eq_ok_iff.mp hparent
    obtain ⟨rfl, entries, hentries⟩ := follow_dot_eq_ok hdot
    split at h
    next => cases h
    next hplain =>
      rw [not_or, not_or] at hplain
      obtain ⟨hone, htwo, hlength⟩ := hplain
      split at h
      next => cases h
      next hshort =>
        split at h
        next => cases h
        next hfree =>
          cases h
          exact ⟨parent, name, rfl,
            { checked := hcheck
              way := ⟨before, (withoutTrailing_eq_self hlength).symm.trans hnamed, hfound⟩
              named := ⟨ne_nil_of_withoutTrailing hnamed, hone, htwo, by simpa using hshort⟩
              room := ⟨⟨entries, hentries⟩, fun es hes => hfree es hes⟩ }⟩

theorem read_eq_ok_iff {content : List UInt8} : disk.read path = .ok content ↔
    checkPath path = .ok () ∧ ∃ place,
      follow disk.root (disk.stepsOf path).1 (disk.stepsOf path).2 = .ok place ∧
        disk.root.at? place = some (.file content) := by
  rw [read, find]
  simp only [Fault.bind_eq_ok_iff]
  constructor
  · rintro ⟨t, ⟨_, hcheck, place, hfollow, hfound⟩, hcontent⟩
    split at hfound
    next u hplace =>
      cases hfound
      split at hcontent
      next =>
        cases hcontent
        exact ⟨hcheck, place, hfollow, hplace⟩
      next => cases hcontent
    next => cases hfound
  · rintro ⟨hcheck, place, hfollow, hplace⟩
    exact ⟨.file content, ⟨(), hcheck, place, hfollow, by rw [hplace]; rfl⟩, rfl⟩

/-- What is written to a path is read back from it. -/
theorem read_write (h : disk.placeToWrite path = .ok place) (content : List UInt8) :
    (disk.write place content).read path = .ok content := by
  obtain ⟨parent, name, rfl, hallots⟩ := allots_of_placeToWrite h
  obtain ⟨before, hsteps, hway⟩ := hallots.way
  obtain ⟨hname, hone, htwo, hshort⟩ := hallots.named
  have hkeeps := hallots.room.keeps content
  have hself := hallots.room.at?_put_self (.file content)
  obtain ⟨entries, hparent⟩ := hallots.room.around
  obtain ⟨entries', hparent'⟩ := hkeeps.directories _ _ hparent
  have hnamed : FileTree.named? name entries' = some (.file content) := by
    rw [← FileTree.at?_concat hparent', hself]
  refine read_eq_ok_iff.mpr ⟨hallots.checked, parent ++ [name], ?_, hself⟩
  -- The directory is found as before; only the last step leads to what is new.
  change follow (disk.root.put _ _) (disk.stepsOf path).1 (disk.stepsOf path).2 = _
  rw [hsteps, follow_append, Fault.bind_eq_ok_iff]
  refine ⟨parent, follow_of_keeps hkeeps hway, ?_⟩
  rw [follow, hparent']
  simp [hname, hone, htwo, hshort, hnamed, follow]

@[simp] theorem write_write (disk : Disk) (place : List Text) (first second : List UInt8) :
    (disk.write place first).write place second = disk.write place second :=
  Disk.ext (FileTree.put_put disk.root place _ _) rfl

/-- Writing to a path changes no other file. -/
theorem at?_write_eq_file_iff (h : disk.placeToWrite path = .ok place) (content : List UInt8)
    {other : List Text} (hne : other ≠ place) {c : List UInt8} :
    (disk.write place content).root.at? other = some (.file c) ↔
      disk.root.at? other = some (.file c) := by
  obtain ⟨parent, name, rfl, hallots⟩ := allots_of_placeToWrite h
  exact hallots.room.at?_put_eq_file_iff hne

/-- All files but the one that a path leads to are as they were. -/
def KeepsOthers (before after : Disk) (path : Text) : Prop :=
  ∀ place, before.placeToWrite path = .ok place → ∀ other, other ≠ place → ∀ c,
    after.root.at? other = some (.file c) ↔ before.root.at? other = some (.file c)

theorem KeepsOthers.refl (disk : Disk) (path : Text) : disk.KeepsOthers disk path :=
  fun _ _ _ _ _ => Iff.rfl

/-- The file of a path got a content: it is read back, and no other file changed. -/
structure Stored (before after : Disk) (path : Text) (content : List UInt8) : Prop where
  opened : ∃ place, before.placeToWrite path = .ok place
  read : after.read path = .ok content
  others : before.KeepsOthers after path

theorem stored_write (h : disk.placeToWrite path = .ok place) (content : List UInt8) :
    disk.Stored (disk.write place content) path content where
  opened := ⟨place, h⟩
  read := read_write h content
  others place' h' other hne c := by
    cases h.symm.trans h'
    exact at?_write_eq_file_iff h content hne

end Disk

end ManifestChain
