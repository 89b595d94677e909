import ManifestChain.Files.Disk

/-!
# Reading the manifests of a directory

The manifests of a workload are the documents of all YAML files below a directory, at any depth. The
files are read in the order of their paths, compared part by part, so the manifests do not depend on
the order in which the entries of a directory are listed. How the documents of a file are read is
left open.
-/

namespace ManifestChain

namespace FileTree

/-- The order of paths: by the first parts that differ, a path before what lies below it. -/
def pathLe : List Text → List Text → Bool
  | [], _ => true
  | _ :: _, [] => false
  | a :: s, b :: t => if a = b then pathLe s t else a.le b

def hasSuffix (suffix : Text) (path : List Text) : Bool :=
  match path.getLast? with
  | some name => name.endsWith suffix
  | none => false

/-- What lies below a place under the name of a YAML file, in the order of the paths. -/
def yamlFiles (t : FileTree) : List (List Text × FileTree) :=
  let below := t.descendants
  (below.filter (fun found => hasSuffix ".yaml" found.1) ++
    below.filter (fun found => hasSuffix ".yml" found.1)).mergeSort fun a b => pathLe a.1 b.1

end FileTree

namespace Value

/-- Whether a document is a manifest: a mapping that is not empty. -/
def isManifest : Value → Bool
  | map _ entries => !entries.isEmpty
  | _ => false

end Value

section

variable (documents : List UInt8 → Except Fault (List Value))

/-- The manifests of what stands at a place that was found by its name. -/
def FileTree.manifests : FileTree → Except Fault (List Value)
  | file content => do return (← documents content).filter Value.isManifest
  | directory _ => .error .isDirectory

/-- The manifests of several places, one after the other. -/
def manifestsOf : List (List Text × FileTree) → Except Fault (List Value)
  | [] => .ok []
  | (_, t) :: rest => do
    let manifests ← t.manifests documents
    return manifests ++ (← manifestsOf rest)

end

/-- A path in its shortest form: without steps that stay where they are, and without a slash at the
end. -/
def Disk.shortened (path : Text) : Text :=
  let steps := (path.splitOn '/').filter fun step => !(step.isEmpty || step == Text.ofString ".")
  (if path.startsWith "/" then "/" else "") ++ Text.join "/" steps

/-- The manifests below a directory, given how the documents of a file are read; what is no
directory has none. -/
def Disk.manifests (disk : Disk) (documents : List UInt8 → Except Fault (List Value))
    (path : Text) : Except Fault (List Value) :=
  match disk.find (Disk.shortened path) with
  | .ok t => manifestsOf documents t.yamlFiles
  | .error .nameTooLong => .error .nameTooLong
  | .error _ => .ok []

end ManifestChain
