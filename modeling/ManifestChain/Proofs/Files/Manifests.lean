import Mathlib.Data.List.Sort
import ManifestChain.Files.Manifests
import ManifestChain.Proofs.Files.Listing
import ManifestChain.Proofs.Text.Order
import ManifestChain.Yaml.Stream

/-!
# The manifests of a tree of files

The manifests below a directory are those of all YAML files below it, each one read once, in the
order of the paths. They depend on what the files hold and not on the order in which a directory
lists its entries. Where some file cannot be read, the fault is that of the first such path. All of
this holds whatever reads the documents of a file.
-/

namespace ManifestChain

namespace FileTree

/-! ## The order of paths -/

/-- Paths are ordered by the first parts that differ, a path before what lies below it. -/
abbrev Before : List Text → List Text → Prop := List.Lex Text.Before

theorem cons_before_cons_iff {a b : Text} {p q : List Text} :
    Before (a :: p) (b :: q) ↔ a.Before b ∨ a = b ∧ Before p q := List.cons_lex_cons_iff

theorem pathLe_iff_not_before (p q : List Text) : pathLe p q = true ↔ ¬Before q p := by
  induction p generalizing q with
  | nil => simp [pathLe]
  | cons a p ih => cases q with
    | nil => simp [pathLe]
    | cons b q =>
        rw [pathLe, cons_before_cons_iff]
        split
        next heq =>
          subst heq
          have hirrefl : ¬Text.Before a a := irrefl_of Text.Before a
          simp only [ih, hirrefl, true_and, false_or]
        next hne =>
          have hne' : b ≠ a := Ne.symm hne
          simp only [Text.le_iff_not_before, hne', false_and, or_false]

theorem pathLe_trans {p q r : List Text} (hpq : pathLe p q = true) (hqr : pathLe q r = true) :
    pathLe p r = true := by
  rw [pathLe_iff_not_before] at hpq hqr ⊢
  exact IsOrderConnected.neg_trans hqr hpq

theorem pathLe_total (p q : List Text) : (pathLe p q || pathLe q p) = true := by
  rw [Bool.or_eq_true, pathLe_iff_not_before, pathLe_iff_not_before, ← not_and_or]
  exact fun hboth => Std.Asymm.asymm _ _ hboth.1 hboth.2

/-! ## The YAML files below a place -/

/-- A path whose last part ends in one of the suffixes of YAML files. -/
def IsYamlPath (path : List Text) : Prop :=
  ∃ (parents : List Text) (stem : Text),
    path = parents ++ [stem ++ ".yaml"] ∨ path = parents ++ [stem ++ ".yml"]

theorem hasSuffix_iff {suffix : Text} {path : List Text} :
    hasSuffix suffix path = true ↔ ∃ parents stem, path = parents ++ [stem ++ suffix] := by
  rw [hasSuffix]
  split
  next name hlast =>
    obtain ⟨parents, rfl⟩ := List.getLast?_eq_some_iff.mp hlast
    rw [Text.endsWith, List.isSuffixOf_iff_suffix]
    constructor
    · rintro ⟨stem, rfl⟩
      exact ⟨parents, stem, rfl⟩
    · rintro ⟨parents', stem, heq⟩
      exact ⟨stem, (List.cons.inj (List.append_inj' heq rfl).2).1.symm⟩
  next hlast =>
    rw [List.getLast?_eq_none_iff.mp hlast]
    simp

theorem not_hasSuffix_both (path : List Text) :
    ¬(hasSuffix ".yaml" path = true ∧ hasSuffix ".yml" path = true) := by
  simp only [hasSuffix_iff]
  rintro ⟨⟨parents, stem, rfl⟩, parents', stem', heq⟩
  have hname := (List.cons.inj (List.append_inj' heq rfl).2).1
  -- The texts differ in the third code point from the end.
  have hback := congrArg List.reverse hname
  simp [Text.ofString, Text.ofChars] at hback

theorem isYamlPath_iff (path : List Text) :
    (hasSuffix ".yaml" path || hasSuffix ".yml" path) = true ↔ IsYamlPath path := by
  simp only [Bool.or_eq_true, hasSuffix_iff, IsYamlPath, exists_or]

theorem yamlFiles_perm (t : FileTree) : t.yamlFiles.Perm (t.descendants.filter fun found =>
    hasSuffix ".yaml" found.1 || hasSuffix ".yml" found.1) := by
  have hsplit := List.filter_append_perm (fun found => hasSuffix ".yaml" found.1)
    (t.descendants.filter fun found => hasSuffix ".yaml" found.1 || hasSuffix ".yml" found.1)
  rw [List.filter_filter, List.filter_filter] at hsplit
  refine (List.mergeSort_perm _ _).trans ((List.Perm.of_eq ?_).trans hsplit)
  congr 1 <;> refine List.filter_congr fun found _ => ?_
  · cases hasSuffix ".yaml" found.1 <;> rfl
  · have hboth := not_hasSuffix_both found.1
    cases hyaml : hasSuffix ".yaml" found.1 with
    | false => rfl
    | true => simpa [hyaml] using hboth

theorem Distinct.mem_yamlFiles_iff {t : FileTree} (h : t.Distinct) {path : List Text}
    {u : FileTree} : (path, u) ∈ t.yamlFiles ↔ IsYamlPath path ∧ t.at? path = some u := by
  rw [t.yamlFiles_perm.mem_iff, List.mem_filter, h.mem_descendants_iff, isYamlPath_iff]
  constructor
  · rintro ⟨⟨_, hat⟩, hpath⟩
    exact ⟨hpath, hat⟩
  · rintro ⟨hpath, hat⟩
    refine ⟨⟨?_, hat⟩, hpath⟩
    rintro rfl
    obtain ⟨parents, stem, heq | heq⟩ := hpath <;> simp at heq

/-- The paths of all YAML files below a place, in their order. -/
structure YamlPaths (t : FileTree) (paths : List (List Text)) : Prop where
  ordered : paths.Pairwise Before
  complete : ∀ path, path ∈ paths ↔ IsYamlPath path ∧ (t.at? path).isSome = true

theorem Distinct.yamlPaths {t : FileTree} (h : t.Distinct) :
    t.YamlPaths (t.yamlFiles.map Prod.fst) where
  ordered := by
    have hsorted : t.yamlFiles.Pairwise fun a b => pathLe a.1 b.1 = true := by
      refine List.pairwise_mergeSort ?_ ?_ _
      · exact fun a b c => pathLe_trans
      · exact fun a b => pathLe_total a.1 b.1
    have hnodup : (t.yamlFiles.map Prod.fst).Nodup :=
      (t.yamlFiles_perm.map Prod.fst).nodup_iff.mpr
        (h.nodup_descendants.sublist (List.filter_sublist.map Prod.fst))
    refine List.pairwise_map.mpr
      (hsorted.imp₂ (fun a b hle hne => ?_) (List.pairwise_map.mp hnodup))
    rw [pathLe_iff_not_before] at hle
    by_contra hnot
    exact hne (Std.Trichotomous.trichotomous _ _ hnot hle)
  complete path := by
    rw [List.mem_map, Option.isSome_iff_exists]
    constructor
    · rintro ⟨⟨path, u⟩, hmem, rfl⟩
      obtain ⟨hpath, hat⟩ := h.mem_yamlFiles_iff.mp hmem
      exact ⟨hpath, u, hat⟩
    · rintro ⟨hpath, u, hat⟩
      exact ⟨(path, u), h.mem_yamlFiles_iff.mpr ⟨hpath, hat⟩, rfl⟩

namespace YamlPaths

variable {t u : FileTree} {paths paths' : List (List Text)}

theorem unique (h : t.YamlPaths paths) (h' : t.YamlPaths paths') : paths = paths' := by
  have hperm : paths.Perm paths' :=
    (List.perm_ext_iff_of_nodup (h.ordered.imp ne_of_irrefl) (h'.ordered.imp ne_of_irrefl)).mpr
      fun path => (h.complete path).trans (h'.complete path).symm
  exact hperm.eq_of_pairwise' h.ordered h'.ordered

theorem of_agree (h : t.YamlPaths paths) (hagree : t.Agree u) : u.YamlPaths paths where
  ordered := h.ordered
  complete path := by rw [h.complete, hagree.at?_isSome]

end YamlPaths

/-! ## Reading them -/

section

variable (documents : List UInt8 → Except Fault (List Value))

/-- What reading the file of a path as a stream of documents gives. A directory cannot be read. -/
def readingAt (t : FileTree) (path : List Text) : Except Fault (List Value) :=
  match t.at? path with
  | some (file content) => documents content
  | some (directory _) => .error .isDirectory
  | none => .error .fileNotFound

theorem Agree.readingAt_eq {t u : FileTree} (h : t.Agree u) (path : List Text) :
    t.readingAt documents path = u.readingAt documents path := by
  rw [readingAt, readingAt]
  rcases h.cases_at? path with ⟨hnone, hnone'⟩ | ⟨content, hfile, hfile'⟩ |
    ⟨entries, entries', hdirectory, hdirectory'⟩
  · rw [hnone, hnone']
  · rw [hfile, hfile']
  · rw [hdirectory, hdirectory']

end

end FileTree

/-- A mapping that is not empty. -/
def Value.IsManifest (v : Value) : Prop := ∃ mark entry entries, v = map mark (entry :: entries)

theorem Value.isManifest_iff (v : Value) : v.isManifest = true ↔ v.IsManifest := by
  unfold isManifest
  split
  next mark entries => cases entries <;> simp [IsManifest]
  next hnot =>
    refine iff_of_false Bool.false_ne_true ?_
    rintro ⟨mark, entry, entries, rfl⟩
    exact hnot mark _ rfl

instance : DecidablePred Value.IsManifest := fun v => decidable_of_iff _ v.isManifest_iff

theorem Value.filter_isManifest (stream : List Value) :
    stream.filter Value.isManifest = stream.filter fun v => v.IsManifest :=
  List.filter_congr fun v _ => Bool.eq_iff_iff.mpr (by rw [v.isManifest_iff, decide_eq_true_iff])

namespace FileTree

variable {documents : List UInt8 → Except Fault (List Value)} {t u : FileTree}

theorem manifests_eq {path : List Text} (h : t.at? path = some u) : u.manifests documents =
    (t.readingAt documents path).map fun stream => stream.filter fun v => v.IsManifest := by
  cases u with
  | file content =>
      have hread : t.readingAt documents path = documents content := by rw [readingAt, h]
      rw [manifests, hread]
      cases documents content with
      | error e => rfl
      | ok stream => exact congrArg Except.ok (Value.filter_isManifest stream)
  | directory entries =>
      have hread : t.readingAt documents path = .error .isDirectory := by rw [readingAt, h]
      rw [manifests, hread]
      rfl

theorem manifestsOf_eq {files : List (List Text × FileTree)}
    (h : ∀ found ∈ files, t.at? found.1 = some found.2) : manifestsOf documents files =
      ((files.map Prod.fst).mapM (t.readingAt documents)).map fun streams =>
        streams.flatMap fun stream => stream.filter fun v => v.IsManifest := by
  induction files with
  | nil => rfl
  | cons found files ih =>
      obtain ⟨hfound, hfiles⟩ := List.forall_mem_cons.mp h
      rw [manifestsOf, manifests_eq hfound, ih hfiles, List.map_cons, List.mapM_cons]
      cases t.readingAt documents found.1 with
      | error e => rfl
      | ok stream => cases (files.map Prod.fst).mapM (t.readingAt documents) <;> rfl

theorem Distinct.manifestsOf_yamlFiles (h : t.Distinct) {paths : List (List Text)}
    (hpaths : t.YamlPaths paths) : manifestsOf documents t.yamlFiles =
      (paths.mapM (t.readingAt documents)).map fun streams =>
        streams.flatMap fun stream => stream.filter fun v => v.IsManifest := by
  rw [manifestsOf_eq fun _ hfound => (h.mem_yamlFiles_iff.mp hfound).2, h.yamlPaths.unique hpaths]

end FileTree

namespace Disk

open FileTree

variable (documents : List UInt8 → Except Fault (List Value)) {disk disk' : Disk}

/-- What a path finds on a disk has distinct names too. -/
theorem distinct_of_find {path : Text} {t : FileTree} (h : disk.find path = .ok t) :
    t.Distinct := by
  obtain ⟨place, hplace⟩ := exists_at?_of_find h
  exact disk.distinct.at? hplace

/-- The manifests do not depend on the order in which the entries of directories are listed. -/
theorem Relisted.manifests (h : disk.Relisted disk') (path : Text) :
    disk'.manifests documents path = disk.manifests documents path := by
  rw [Disk.manifests, Disk.manifests]
  rcases h.find (shortened path) with ⟨t, u, ht, hu, htu⟩ | ⟨e, he, he'⟩
  · rw [ht, hu]
    have hpaths := (distinct_of_find ht).yamlPaths
    change manifestsOf documents u.yamlFiles = manifestsOf documents t.yamlFiles
    rw [(distinct_of_find ht).manifestsOf_yamlFiles hpaths, funext (htu.readingAt_eq documents),
      (distinct_of_find hu).manifestsOf_yamlFiles (hpaths.of_agree htu)]
  · rw [he, he']

/-- The manifests below a directory are those of all YAML files below it, in the order of their
paths, however the entries of directories are listed. They fail as the first file does that cannot
be read. -/
theorem manifests_yamlPaths (disk : Disk) (path : Text) :
    (∀ disk', disk.Relisted disk' →
      disk'.manifests documents path = disk.manifests documents path) ∧
    (∀ t, disk.find (shortened path) = .ok t → ∃ paths, t.YamlPaths paths ∧
      (∀ manifests, disk.manifests documents path = .ok manifests ↔ ∃ streams,
        List.Forall₂ (fun place stream => t.readingAt documents place = .ok stream) paths streams ∧
        manifests = streams.flatMap fun stream => stream.filter fun v => v.IsManifest) ∧
      ∀ e, disk.manifests documents path = .error e ↔ ∃ before place after,
        paths = before ++ place :: after ∧
        (∀ earlier ∈ before, ∃ stream, t.readingAt documents earlier = .ok stream) ∧
        t.readingAt documents place = .error e) ∧
    ∀ e, disk.find (shortened path) = .error e → e ≠ .nameTooLong →
      disk.manifests documents path = .ok [] := by
  refine ⟨fun disk' hrelisted => hrelisted.manifests documents path, fun t ht => ?_,
    fun e he hlong => ?_⟩
  · have hdistinct := distinct_of_find ht
    have hpaths := hdistinct.yamlPaths
    have hmanifests : disk.manifests documents path = manifestsOf documents t.yamlFiles := by
      rw [manifests, ht]
    rw [hmanifests, hdistinct.manifestsOf_yamlFiles hpaths]
    refine ⟨_, hpaths, fun manifests => ?_, fun e => ?_⟩
    · rw [Fault.map_eq_ok_iff]
      exact exists_congr fun streams => and_congr Fault.mapM_eq_ok_iff eq_comm
    · rw [Fault.map_eq_error_iff, Fault.mapM_eq_error_iff]
  · rw [manifests, he]
    cases e with
    | nameTooLong => exact absurd rfl hlong
    | _ => rfl

/-- What lies in a directory comes before a name that extends the name of the directory. A directory
with the name of a YAML file cannot be read. -/
theorem manifests_yamlPaths_directory :
    let below : FileTree := .directory [("b.yml", .file [107, 58, 32, 49])]
    let disk : Disk :=
      ⟨.directory [("a-b.yaml", .directory []), ("a", below)], [], by decide⟩
    let disk' : Disk :=
      ⟨.directory [("a", below), ("a-b.yaml", .directory [])], [], by decide⟩
    disk.Relisted disk' ∧ disk.root.YamlPaths [["a", "b.yml"], ["a-b.yaml"]] ∧
      disk.manifests Yaml.documents "." = .error .isDirectory ∧
      disk'.manifests Yaml.documents "." = .error .isDirectory := by
  intro below disk disk'
  have hrelisted : disk.Relisted disk' := ⟨.perm (List.Perm.swap _ _ _), rfl⟩
  let places : List (List Text) := [["a", "b.yml"], ["a-b.yaml"]]
  have hfiles : (disk.root.yamlFiles.map Prod.fst).Perm places :=
    (disk.root.yamlFiles_perm.map Prod.fst).trans (List.Perm.swap _ _ _)
  have hpaths : disk.root.YamlPaths places :=
    { ordered := by decide
      complete := fun path => hfiles.mem_iff.symm.trans (disk.distinct.yamlPaths.complete path) }
  obtain ⟨hlisting, hfound, -⟩ := manifests_yamlPaths Yaml.documents disk "."
  obtain ⟨paths, hpaths', -, hfault⟩ := hfound disk.root (by rfl)
  have hread : ∃ stream, disk.root.readingAt Yaml.documents ["a", "b.yml"] = .ok stream := by
    have hsome : (disk.root.readingAt Yaml.documents ["a", "b.yml"]).toOption.isSome = true := by
      decide +kernel
    cases hreading : disk.root.readingAt Yaml.documents ["a", "b.yml"] with
    | error e =>
        rw [hreading] at hsome
        cases hsome
    | ok stream => exact ⟨stream, rfl⟩
  have herror : disk.manifests Yaml.documents "." = .error .isDirectory :=
    (hfault _).mpr ⟨[["a", "b.yml"]], ["a-b.yaml"], [], hpaths'.unique hpaths,
      List.forall_mem_singleton.mpr hread, by rfl⟩
  exact ⟨hrelisted, hpaths, herror, (hlisting disk' hrelisted).trans herror⟩

end Disk

end ManifestChain
