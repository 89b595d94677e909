import ManifestChain.Command

/-!
# The program

The outer layer of the command: it puts the files that the command may read on a disk, runs the
command there, and carries its effects over to the file system and the two streams. Directories are
not listed; the paths of what lies below the directory of manifests are read from standard input,
one a line, in any order.
-/

namespace ManifestChain

namespace Program

/-- The names of the place that a path leads to, from those of the current directory. -/
def placeOf (current : List Text) (path : String) : List Text :=
  let t := Text.ofString path
  (t.splitOn '/').foldl
    (fun place step =>
      if step = [] ∨ step = "." then place
      else if step = ".." then place.dropLast
      else place ++ [step])
    (if t.startsWith "/" then [] else current)

/-- What stands at a path of the file system. -/
def look (path : String) : IO (Option FileTree) :=
  try
    return some (.file (← IO.FS.readBinFile path).toList)
  catch
    | .inappropriateType _ _ _ => return some (.directory [])
    | _ => return none

/-- The disk with what stands at a path. -/
def adding (disk : Disk) (path : String) : IO Disk := do
  let place := placeOf disk.current path
  match ← look path with
  | some (.file content) => return disk.write place content
  | some (.directory _) => return disk.makeDirectory place
  | none => return disk

/-- The lines of standard input, at most `fuel` of them. -/
def readLines (stdin : IO.FS.Stream) : Nat → IO (List String)
  | 0 => return []
  | fuel + 1 => do
    let line ← stdin.getLine
    if line.isEmpty then return []
    let text := String.ofList (line.toList.filter fun c => c != '\n')
    return text :: (← readLines stdin fuel)

def stringOf (t : Text) : String := String.ofList t.scalars

/-- The disk that a command line works on. The directories around an output file count as there;
writing it finds out. -/
def diskFor (options : Options) (listed : List String) : IO Disk := do
  let current := placeOf [] (toString (← IO.currentDir))
  let config := (options.config.map stringOf).toList
  let disk ← (config ++ listed).foldlM adding (.empty current)
  match options.output with
  | none => return disk
  | some path =>
    let place := placeOf current (stringOf path)
    adding (disk.makeDirectory place.dropLast) (stringOf path)

/-- Writes the file of a command that has written one. -/
def carryOver (options : Options) (before after : Disk) : IO Unit := do
  match options.output with
  | none => return
  | some path =>
    match before.read path, after.read path with
    | .ok old, .ok new =>
      if old != new then IO.FS.writeBinFile (stringOf path) ⟨new.toArray⟩
    | _, .ok new => IO.FS.writeBinFile (stringOf path) ⟨new.toArray⟩
    | _, .error _ => return

/-- Words for a fault that the command does not take care of. -/
def describe : Fault → String
  | .wrongKind => "a value is of the wrong kind"
  | .noSuchMember => "a value does not know an operation"
  | .badValue => "a value is not acceptable"
  | .outOfRange => "a number or a moment is out of range"
  | .unencodable => "a text has no encoding"
  | .undecodable => "a file is not encoded in UTF-8"
  | .malformedJson => "a payload is no JSON document"
  | .malformedYaml => "a file is no YAML stream, or a value has no form in one"
  | .endless => "a document contains itself"
  | .missingKey => "a key is missing"
  | .indexOutOfRange => "an index is out of range"
  | .fileNotFound => "a file or directory is not there"
  | .isDirectory => "a directory stands where a file is expected"
  | .notDirectory => "a file stands where a directory is expected"
  | .nameTooLong => "a name or a path is too long"
  | .frozenRecord => "a record cannot be changed"
  | f => stringOf (f.message?.getD [])

/-- Runs a command on a disk and carries its effects over. -/
def perform (command : Command Unit) (disk : Disk) (options : Option Options) : IO UInt32 := do
  let (ending, t) := command.runOn ⟨disk, [], []⟩
  match options with
  | some o => carryOver o disk t.disk
  | none => pure ()
  IO.print (stringOf t.out)
  IO.eprint (stringOf t.err)
  match ending with
  | .ok status => return UInt32.ofNat status
  | .error f =>
    IO.eprintln (describe f)
    return 1

end Program

end ManifestChain

open ManifestChain in
def main (args : List String) : IO UInt32 := do
  let words := args.map Text.ofString
  let command := Command.ofWords .standard words
  match Options.parse words with
  | .ok (.run options) =>
    let listed ← Program.readLines (← IO.getStdin) 1000000
    Program.perform command (← Program.diskFor options listed) (some options)
  | _ => Program.perform command (.empty []) none
