import ManifestChain.Options.Fault
import ManifestChain.Text.Digit

/-!
# The words of a command line

A word is a flag, with an argument joined to it or not, or an operand. A flag may be cut short as
long as one spelling is left that it can mean; an argument is joined to a short flag directly or
after an equals sign, to a long one after an equals sign. After two dashes alone all words are
operands.
-/

namespace ManifestChain

inductive Word where
  | operand
  /-- Two dashes alone. -/
  | separator
  /-- A flag, and the argument that is joined to it in the same word. -/
  | flag (flag : Flag) (isShort : Bool) (joined : Option Text)
  /-- A word in the form of a flag that is none. -/
  | unknown
deriving DecidableEq, Repr

namespace Word

/-- The text before the first equals sign, and the text after it if there is one. -/
def cutAtEquals : Text → Text × Option Text
  | [] => ([], none)
  | c :: t =>
    if c = '=' then ([], some t)
    else let (before, after) := cutAtEquals t
      (c :: before, after)

def isShort (spelling : Text) : Bool := !spelling.startsWith "--"

/-- What a word may mean that begins like a flag: spellings, each with the flag and the argument
joined to it. -/
def readings (word : Text) : List (Text × Word) :=
  if word.startsWith "--" then
    let (before, after) := cutAtEquals word
    Flag.table.filterMap fun (spelling, f) =>
      if spelling.startsWith before then
        some (spelling, flag f (isShort spelling) after)
      else none
  else
    Flag.table.filterMap fun (spelling, f) =>
      if spelling = word.take 2 then
        some (spelling, flag f (isShort spelling) (some (word.drop 2)))
      else if spelling.startsWith word then some (spelling, flag f (isShort spelling) none)
      else none

def allDigits (t : Text) : Bool := t.all fun c => c.digit?.isSome

/-- Whether a text after a dash is a number, with a fraction or without, perhaps before a line
break at the end. -/
def isNumber (t : Text) : Bool :=
  let body := if t.getLast? = some '\n' then t.dropLast else t
  (allDigits body && !body.isEmpty) ||
    match body.span fun c => c.digit?.isSome with
    | (_, .scalar '.' :: fraction) => allDigits fraction && !fraction.isEmpty
    | _ => false

/-- The kind of a word that is no spelling of a flag, with or without an argument after an equals
sign. -/
def ofOther (word : Text) : Except UsageFault Word :=
  match readings word with
  | [(_, reading)] => .ok reading
  | [] =>
    if isNumber (word.drop 1) || word.contains ' ' then .ok operand else .ok unknown
  | several => .error (.ambiguous word (several.map Prod.fst))

def ofText (word : Text) : Except UsageFault Word :=
  if !word.startsWith "-" then .ok operand
  else match Flag.ofSpelling? word with
    | some f => .ok (flag f (isShort word) none)
    | none =>
      if word.length = 1 then .ok operand
      else match cutAtEquals word with
        | (before, some argument) =>
          match Flag.ofSpelling? before with
          | some f => .ok (flag f (isShort before) (some argument))
          | none => ofOther word
        | (_, none) => ofOther word

/-- The words of a command line, each with its kind. -/
def classify : List Text → Except UsageFault (List (Text × Word))
  | [] => .ok []
  | word :: rest =>
    if word = "--" then .ok ((word, separator) :: rest.map (·, operand))
    else do
      let kind ← ofText word
      return (word, kind) :: (← classify rest)

end Word

end ManifestChain
