import ManifestChain.Options.Flag
import ManifestChain.Text.Quoted

/-!
# What is wrong with a command line
-/

namespace ManifestChain

/-- Why a command line cannot be carried out. -/
inductive UsageFault where
  /-- A word is the beginning of several spellings. -/
  | ambiguous (word : Text) (spellings : List Text)
  /-- A flag that takes no argument is given one in the same word. -/
  | ignoredArgument (flag : Flag) (argument : Text)
  /-- A flag is not followed by the argument it takes. -/
  | missingArgument (flag : Flag)
  | missingFlag (flag : Flag)
  /-- Words are neither flags nor their arguments. -/
  | unrecognized (words : List Text)
  /-- Flags and configuration leave out the workload's name or uid. -/
  | missingIdentity

namespace UsageFault

def text : UsageFault → Text
  | ambiguous word spellings =>
    "ambiguous option: " ++ word ++ " could match " ++ Text.join ", " spellings
  | ignoredArgument flag argument =>
    "argument " ++ flag.label ++ ": ignored explicit argument " ++ Quoted.text argument
  | missingArgument flag => "argument " ++ flag.label ++ ": expected one argument"
  | missingFlag flag => "the following arguments are required: " ++ flag.label
  | unrecognized words => "unrecognized arguments: " ++ Text.join " " words
  | missingIdentity =>
    "workload name and uid are required (flags or config 'workload' block)"

end UsageFault

end ManifestChain
