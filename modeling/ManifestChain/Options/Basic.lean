import ManifestChain.Config
import ManifestChain.Options.Word

/-!
# Reading the command line

A flag may be given several times; the last one counts. A request for help ends the reading, so what
is wrong after it goes unnoticed, but the words are classified before any is carried out.

Readers of command lines have changed in two points, and in both this one keeps to the older way.
Two dashes that are joined to a flag are not taken as text: the flag is given, but with nothing. And
a letter that is no flag is refused where it is joined to a short request for help.
-/

namespace ManifestChain

/-- What a command line asks for. -/
structure Options where
  /-- The directory of the manifests, unless the flag was given with nothing. -/
  fromDir : Option Text
  identity : IdentityOptions
  /-- The file of the configuration, unless the flag was given with nothing. -/
  config : Option Text
  translators : Option Text
  output : Option Text

/-- A command line that can be carried out. -/
inductive Request where
  | help
  | run (options : Options)

namespace Options

/-- The configuration that is read unless another one is named. -/
def standardConfig : Text := "oamtranslate.yaml"

/-- What has been read so far: the arguments of flags, the last one first, and the words that are
neither flags nor arguments. -/
structure Progress where
  arguments : List (Flag × Option Text)
  others : List Text

namespace Progress

/-- Notes the argument of a flag. Two dashes are none, which is the older way; later readers take
them as they stand. -/
def addArgument (p : Progress) (flag : Flag) (argument : Text) : Progress :=
  let taken := if argument = "--" then none else some argument
  { p with arguments := (flag, taken) :: p.arguments }

def addOther (p : Progress) (word : Text) : Progress := { p with others := p.others ++ [word] }

/-- The argument that counts for a flag that was given. -/
def argument? (p : Progress) (flag : Flag) : Option (Option Text) :=
  (p.arguments.find? fun given => given.1 = flag).map Prod.snd

/-- The argument that counts for a flag, empty if the flag was given with nothing. -/
def text? (p : Progress) (flag : Flag) : Option Text := (p.argument? flag).map fun a => a.getD []

end Progress

/-- Whether the next word can be the argument of a flag. -/
def operandFollows : List (Text × Word) → Bool
  | (_, .operand) :: _ => true
  | _ => false

/-- What comes of a text that is joined to a short request for help: more short flags, the last of
which may take an argument. Help is given if all of them are flags, which is the older way; later
readers give it before they come to a letter that is none. -/
def helpCluster (operandNext : Bool) : Text → Except UsageFault Unit
  | [] => .ok ()
  | c :: rest =>
    match Flag.ofSpelling? ['-', c] with
    | some .help => helpCluster operandNext rest
    | some flag =>
      if rest.isEmpty && !operandNext then .error (.missingArgument flag) else .ok ()
    | none => .error (.ignoredArgument .help (c :: rest))

/-- Whether a request for help is in order, whatever is joined to it. -/
def helpRequest (operandNext isShort : Bool) : Option Text → Except UsageFault Unit
  | none => .ok ()
  | some joined =>
    if isShort && !joined.isEmpty then helpCluster operandNext joined
    else .error (.ignoredArgument .help joined)

/-- Carries out the words; nothing is left of them when help is asked for. -/
def consume : List (Text × Word) → Progress → Except UsageFault (Option Progress)
  | [], p => .ok (some p)
  | (word, .operand) :: rest, p => consume rest (p.addOther word)
  | (word, .separator) :: rest, p => consume rest (p.addOther word)
  | (word, .unknown) :: rest, p => consume rest (p.addOther word)
  | (_, .flag .help isShort joined) :: rest, _ => do
    helpRequest (operandFollows rest) isShort joined
    return none
  | (_, .flag flag _ (some joined)) :: rest, p => consume rest (p.addArgument flag joined)
  | (_, .flag flag _ none) :: (argument, .operand) :: rest, p =>
    consume rest (p.addArgument flag argument)
  | (_, .flag flag _ none) :: _, _ => .error (.missingArgument flag)

/-- The options that the words amount to. -/
def ofProgress (p : Progress) : Except UsageFault Options :=
  match p.argument? .fromDir with
  | none => .error (.missingFlag .fromDir)
  | some fromDir =>
    if p.others.isEmpty then
      .ok
        { fromDir
          identity := ⟨p.text? .workloadName, p.text? .workloadNamespace, p.text? .workloadUid⟩
          config := (p.argument? .config).getD (some standardConfig)
          translators := p.text? .translators
          output := p.text? .output }
    else .error (.unrecognized p.others)

/-- What a command line asks for. -/
def parse (words : List Text) : Except UsageFault Request := do
  match ← consume (← Word.classify words) ⟨[], []⟩ with
  | none => return .help
  | some p => return .run (← ofProgress p)

end Options

end ManifestChain
