import ManifestChain.Chain
import ManifestChain.Files.Manifests
import ManifestChain.Options.Basic
import ManifestChain.Options.Help
import ManifestChain.Text.Blank
import ManifestChain.Value.Rendering
import ManifestChain.Yaml.Stream
import ManifestChain.Yaml.Tree.Printer

/-!
# The command

The command reads the configuration and the manifests of a directory, runs the chain on them and
writes what it returns. All that it does to its surroundings is to write one file and two streams of
text. Nothing is written before the chain has returned something. Its words are read, and YAML is
read and written, by tools that the command is given.
-/

namespace ManifestChain

/-- What a command leaves to others: to read its words, and to read and to write YAML. -/
structure Tools where
  parse : List Text → Except UsageFault Request
  /-- The value of the only document of a file. -/
  document : List UInt8 → Except Fault Value
  /-- The values of the documents of a file. -/
  documents : List UInt8 → Except Fault (List Value)
  /-- The stream of some values, up to the first that has no form, and its fault. -/
  write : List Value → List Char × Option Fault

/-- The tools of this library. -/
def Tools.standard : Tools := ⟨Options.parse, Yaml.document, Yaml.documents, Yaml.write⟩

/-- What a command works on: the disk, and what was printed so far on either stream. -/
structure Terminal where
  disk : Disk
  out : Text
  err : Text

/-- Why a command ends early: with an exit status, or with a fault that nobody takes care of. -/
inductive Stop where
  | exit (status : Nat)
  | fault (f : Fault)

/-- A command. What was printed and written before an early end stays. -/
abbrev Command := ExceptT Stop (StateM Terminal)

namespace Command

/-- How a command ends, with status 0 if nothing stops it, and what it leaves behind. -/
def runOn (command : Command Unit) (t : Terminal) : Except Fault Nat × Terminal :=
  match StateT.run (ExceptT.run command) t with
  | (.ok _, t) => (.ok 0, t)
  | (.error (.exit status), t) => (.ok status, t)
  | (.error (.fault f), t) => (.error f, t)

def print (text : Text) : Command Unit := modify fun t => { t with out := t.out ++ text }

def printErr (text : Text) : Command Unit := modify fun t => { t with err := t.err ++ text }

def exit {α : Type} (status : Nat) : Command α := throw (.exit status)

def fail {α : Type} (f : Fault) : Command α := throw (.fault f)

/-- The outcome of something that has no effects. -/
def ofExcept {α : Type} : Except Fault α → Command α
  | .ok x => pure x
  | .error f => fail f

/-- Ends the command because of how it was called. -/
def usageError {α : Type} (f : UsageFault) : Command α := do
  printErr (Help.usage ++ Help.program ++ ": error: " ++ f.text ++ "\n")
  exit 2

def printWarnings : List Text → Command Unit
  | [] => pure ()
  | warning :: rest => do
    printErr ("⚠ " ++ warning ++ "\n")
    printWarnings rest

def header : Text := "# Generated by oamtranslate — do not edit manually\n"

/-- The stream of the documents that a value yields, as far as they have a form in YAML. -/
def stream (write : List Value → List Char × Option Fault) (manifests : Value) :
    Text × Option Fault :=
  match manifests.items? with
  | some documents => (write documents).map Text.ofChars id
  | none => ([], some .wrongKind)

/-- Writes a text to the file at a path, which loses its content. -/
def writeFile (path text : Text) : Command Unit := do
  let t ← get
  let place ← ofExcept (t.disk.placeToWrite path)
  match text.utf8? with
  | some content => set { t with disk := t.disk.write place content }
  | none => fail .unencodable

def failIf : Option Fault → Command Unit
  | none => pure ()
  | some f => fail f

/-- Writes manifests as a stream of documents to a file, or prints them if no path is given. A
manifest without a form in YAML stops the stream, and what stands before it is written. -/
def writeManifests (write : List Value → List Char × Option Fault) (manifests : Value)
    (output : Option Text) : Command Unit :=
  let (text, fault) := stream write manifests
  match output with
  | some (c :: path) => do
    writeFile (c :: path) (header ++ text)
    failIf fault
    printErr ("Wrote " ++ (c :: path) ++ "\n")
  | _ => do
    print text
    failIf fault

/-- The names of a chain, separated by commas; blanks around a name do not count. -/
def chainOf (names : Text) : List Text :=
  ((names.splitOn ',').map Text.strip).filter fun name => !name.isEmpty

/-- The chain to run: that of the options if they give one, else that of the configuration. -/
def chosenChain (options : Options) (config : Entries) : Value :=
  match options.translators with
  | some (c :: names) => .ofList ((chainOf (c :: names)).map Value.text)
  | _ => Value.field config "translators"

/-- Runs the chain and prints its warnings. A fault of the library's own ends the command with a
message. -/
def translated (workload : Workload) (children chain labelKey : Value) : Command Value := do
  let (outcome, ctx) := (Chain.translate workload children chain).runIn ⟨labelKey, [], .null⟩
  match outcome with
  | .ok result =>
    printWarnings ctx.warnings
    return result.value children
  | .error f =>
    match f.message? with
    | some message =>
      printWarnings ctx.warnings
      printErr ("error: " ++ message ++ "\n")
      exit 1
    | none => fail f

/-- The path that a flag gives; a flag that was given with nothing has none. -/
def path (argument : Option Text) : Command Text :=
  match argument with
  | some p => pure p
  | none => fail .wrongKind

def carryOut (tools : Tools) (options : Options) : Command Unit := do
  let disk := (← get).disk
  let config ← ofExcept (Config.load tools.document disk (← path options.config))
  let workload ← ofExcept (Config.identity (.ofEntries config) options.identity)
  if !workload.name.isTruthy || !workload.uid.isTruthy then usageError .missingIdentity
  let fromDir ← path options.fromDir
  let manifests ← ofExcept (disk.manifests tools.documents fromDir)
  printErr ("Parsed " ++ Text.ofNat manifests.length ++ " manifest(s) from " ++ fromDir ++ "\n")
  let result ← translated workload (.ofList manifests) (chosenChain options config)
    (Value.field config "labelKey")
  if result.isTruthy then
    writeManifests tools.write (.ofList (← ofExcept result.manifests)) options.output
  else do
    printErr "No manifests produced — nothing to write.\n"
    exit 1

def ofWords (tools : Tools) (words : List Text) : Command Unit :=
  match tools.parse words with
  | .error f => usageError f
  | .ok .help => do
    print Help.full
    exit 0
  | .ok (.run options) => carryOut tools options

end Command

end ManifestChain
