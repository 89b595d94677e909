import ManifestChain.Context
import ManifestChain.Files.Disk
import ManifestChain.Translator

/-!
# Configuration

A configuration is a mapping from a YAML file. What it leaves out has a default; a key that is there
keeps its value, whatever the value is. A file that is not there is an empty configuration. How the
document of a file is read is left open.
-/

namespace ManifestChain

namespace Config

/-- The names of the default chain, as a configuration holds them. -/
def standardTranslators : Value :=
  .ofList [.text Translator.serviceInjector.name, .text Translator.kubeAppWrapper.name]

/-- What a configuration holds unless it says otherwise. -/
def defaults : List (Text × Value) :=
  [("oamtranslateVersion", "v1"), ("labelKey", .text defaultLabelKey),
    ("translators", standardTranslators), ("workload", .ofEntries [])]

/-- The entries with those added whose keys are missing. -/
def withDefaults (entries : Entries) : List (Text × Value) → Entries
  | [] => entries
  | (key, value) :: rest =>
    match entries.get? key with
    | some _ => withDefaults entries rest
    | none => withDefaults (entries ++ [(.text key, value)]) rest

/-- The configuration that a document is. A document that counts as false is an empty one. -/
def ofDocument (document : Value) : Except Fault Entries :=
  if document.isTruthy then
    match document with
    | .map _ entries => .ok (withDefaults entries defaults)
    | _ => .error .noSuchMember
  else .ok (withDefaults [] defaults)

/-- The configuration of a file, given how its document is read. -/
def ofBytes (document : List UInt8 → Except Fault Value) (content : List UInt8) :
    Except Fault Entries := do
  ofDocument (← document content)

def load (document : List UInt8 → Except Fault Value) (disk : Disk) (path : Text) :
    Except Fault Entries :=
  if path = [] then ofDocument .null
  else match disk.find path with
    | .ok (.file content) => ofBytes document content
    | .ok (.directory _) => .error .isDirectory
    | .error _ => ofDocument .null

end Config

/-- Parts of a workload's identity that are given apart from a configuration. -/
structure IdentityOptions where
  name : Option Text
  nameSpace : Option Text
  uid : Option Text

namespace Config

/-- What a value has under a key, if it can be asked; the empty text if it has nothing. -/
def member (v : Value) (key : Text) : Except Fault Value :=
  match v.entries? with
  | some entries => .ok ((entries.get? key).getD (.text []))
  | none => .error .noSuchMember

/-- A part of the identity: the option if it is given and not empty, else what the workload block
has. The block is asked only then. -/
def identityPart (block : Value) (key : Text) (option : Option Text) : Except Fault Value :=
  match option with
  | none => member block key
  | some [] => member block key
  | some (c :: t) => .ok (.text (c :: t))

/-- The workload that a configuration and the options name. -/
def identity (config : Value) (options : IdentityOptions) : Except Fault Workload := do
  match config.entries? with
  | none => throw .noSuchMember
  | some entries =>
    let found := Value.field entries "workload"
    let block := if found.isTruthy then found else .ofEntries []
    let name ← identityPart block "name" options.name
    let nameSpace ← identityPart block "namespace" options.nameSpace
    return ⟨name, nameSpace, ← identityPart block "uid" options.uid⟩

end Config

end ManifestChain
