import ManifestChain.Text.Basic

/-!
# The flags of the command line

Every flag but the request for help takes one argument. A flag may have a short and a long spelling.
-/

namespace ManifestChain

inductive Flag where
  | help
  | fromDir
  | workloadName
  | workloadNamespace
  | workloadUid
  | config
  | translators
  | output
deriving DecidableEq, Repr

namespace Flag

/-- The spellings of a flag, the short one first. -/
def spellings : Flag → List Text
  | help => ["-h", "--help"]
  | fromDir => ["--from-dir"]
  | workloadName => ["--workload-name"]
  | workloadNamespace => ["--workload-namespace"]
  | workloadUid => ["--workload-uid"]
  | config => ["--config"]
  | translators => ["--translators"]
  | output => ["-o", "--output"]

/-- The flags in the order of the help. -/
def all : List Flag :=
  [help, fromDir, workloadName, workloadNamespace, workloadUid, config, translators, output]

/-- A flag as messages name it. -/
def label (flag : Flag) : Text := Text.join "/" flag.spellings

/-- All spellings, each with its flag. -/
def table : List (Text × Flag) := all.flatMap fun flag => flag.spellings.map (·, flag)

def ofSpelling? (spelling : Text) : Option Flag :=
  (table.find? fun row => row.1 = spelling).map Prod.snd

end Flag

end ManifestChain
