import ManifestChain.Fault
import ManifestChain.Files.Tree
import ManifestChain.Text.Utf8

/-!
# Disks

A disk is a tree of files with a current directory, from which a path that does not begin with a
slash is followed. The entries of its directories have distinct names, and keep them when something
is written.
-/

namespace ManifestChain

/-- A tree and the names that lead to the current directory. -/
@[ext]
structure Disk where
  root : FileTree
  current : List Text
  distinct : root.Distinct

namespace Disk

/-- A disk with no files. -/
def empty (current : List Text) : Disk where
  root := (FileTree.directory []).makeDirectory current
  current := current
  distinct := FileTree.Distinct.empty.makeDirectory current

def makeDirectory (disk : Disk) (place : List Text) : Disk where
  root := disk.root.makeDirectory place
  current := disk.current
  distinct := disk.distinct.makeDirectory place

/-- The number of bytes that a text takes as a name of the disk. A surrogate stands for one byte. -/
def nameSize : Text → Nat
  | [] => 0
  | .scalar c :: rest => (CodePoint.utf8Bytes c.toNat).length + nameSize rest
  | .surrogate _ :: rest => 1 + nameSize rest

/-- Whether a name has more bytes than an entry of a directory can be named by. -/
def isLongName (name : Text) : Bool := 255 < nameSize name

def isLongPath (path : Text) : Bool := 4096 ≤ nameSize path

/-- Follows steps from a place to the names of the place that they lead to. A step that is empty or
one dot stays in a directory, and two dots lead to the directory around it. -/
def follow (root : FileTree) : List Text → List Text → Except Fault (List Text)
  | place, [] => .ok place
  | place, step :: rest =>
    match root.at? place with
    | none => .error .fileNotFound
    | some (.file _) => .error .notDirectory
    | some (.directory entries) =>
      if step = [] ∨ step = "." then follow root place rest
      else if step = ".." then follow root place.dropLast rest
      else if isLongName step then .error .nameTooLong
      else if (FileTree.named? step entries).isSome then follow root (place ++ [step]) rest
      else .error .fileNotFound

/-- The steps of a path, and the place where they start. -/
def stepsOf (disk : Disk) (path : Text) : List Text × List Text :=
  (if path.startsWith "/" then [] else disk.current, path.splitOn '/')

/-- Whether a path can be handed to the disk: all its code points have bytes, and none is zero. -/
def checkPath (path : Text) : Except Fault Unit :=
  if path.any fun c => c.isSurrogate && (c.value < 0xDC80 || 0xDCFF < c.value) then
    .error .unencodable
  else if path.contains (.scalar '\x00') then .error .badValue
  else if isLongPath path then .error .nameTooLong
  else .ok ()

def find (disk : Disk) (path : Text) : Except Fault FileTree := do
  checkPath path
  let (start, steps) := disk.stepsOf path
  let place ← follow disk.root start steps
  match disk.root.at? place with
  | some t => return t
  | none => throw .fileNotFound

def read (disk : Disk) (path : Text) : Except Fault (List UInt8) := do
  match ← disk.find path with
  | .file content => return content
  | .directory _ => throw .isDirectory

/-- The steps without the empty ones at their end, which slashes at the end of a path leave. -/
def withoutTrailing (steps : List Text) : List Text :=
  (steps.reverse.dropWhile List.isEmpty).reverse

/-- The names of the place where a file can be written by a path: the directories on the way to it
are there, and no directory stands where the file is to be. A path that ends with a slash or with
dots is that of a directory. -/
def placeToWrite (disk : Disk) (path : Text) : Except Fault (List Text) := do
  checkPath path
  let (start, steps) := disk.stepsOf path
  let named := withoutTrailing steps
  match named.getLast? with
  | none => throw .isDirectory
  | some name =>
    let parent ← follow disk.root start (named.dropLast ++ [Text.ofString "."])
    if name = "." ∨ name = ".." ∨ named.length < steps.length then throw .isDirectory
    if isLongName name then throw .nameTooLong
    match disk.root.at? (parent ++ [name]) with
    | some (.directory _) => throw .isDirectory
    | _ => return parent ++ [name]

def write (disk : Disk) (place : List Text) (content : List UInt8) : Disk where
  root := disk.root.put place (.file content)
  current := disk.current
  distinct := disk.distinct.put (.file content) place

end Disk

end ManifestChain
