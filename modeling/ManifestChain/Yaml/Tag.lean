import ManifestChain.Text.Basic

/-!
# Tags

A tag tells what kind of value a node stands for. A plain scalar without one gets the tag of the
first form that its text has: truth values, floating point numbers, integers, the merge key, null,
timestamps and the value key, and otherwise it is a text. A quoted scalar that is read as a plain
one may have a line break after the form.
-/

namespace ManifestChain.Yaml

inductive Tag where
  | null
  | bool
  | int
  | float
  | binary
  | timestamp
  | orderedMap
  | pairs
  | set
  | text
  | list
  | map
  | merge
  | valueKey
  | unknown (uri : String)
deriving DecidableEq, Repr

namespace Tag

/-- What the tags of the common kinds begin with. -/
def commonLead : String := "tag:yaml.org,2002:"

/-- The tags of the common kinds by the words that end them. -/
def common : List (String × Tag) :=
  [("null", null), ("bool", bool), ("int", int), ("float", float), ("binary", binary),
    ("timestamp", timestamp), ("omap", orderedMap), ("pairs", pairs), ("set", set), ("str", text),
    ("seq", list), ("map", map), ("merge", merge), ("value", valueKey)]

def ofUri (uri : String) : Tag :=
  match common.find? fun t => commonLead ++ t.1 = uri with
  | some (_, tag) => tag
  | none => unknown uri

/-- A common tag behind two exclamation marks, as it is written. -/
def shorthand (tag : Tag) : Text :=
  match common.find? fun t => t.2 = tag with
  | some (word, _) => "!!" ++ Text.ofString word
  | none => "!!"

end Tag

/-! ### The forms of plain scalars -/

namespace Plain

def unsigned : List Char → List Char
  | '+' :: rest => rest
  | '-' :: rest => rest
  | cs => cs

def isGroupDigit (c : Char) : Bool := c.isDigit || c = '_'

def isBool (cs : List Char) : Bool :=
  let words := ["yes", "Yes", "YES", "no", "No", "NO", "true", "True", "TRUE", "false", "False",
    "FALSE", "on", "On", "ON", "off", "Off", "OFF"]
  words.any fun w => w.toList == cs

def isNull (cs : List Char) : Bool :=
  ["~", "null", "Null", "NULL", ""].any fun w => w.toList == cs

/-- What follows parts of sixty: colons, each with one or two digits, the first of two below six. -/
def afterSixties : List Char → List Char
  | ':' :: a :: b :: rest =>
    if '0' ≤ a ∧ a ≤ '5' ∧ b.isDigit then afterSixties rest
    else if a.isDigit then afterSixties (b :: rest)
    else ':' :: a :: b :: rest
  | [':', a] => if a.isDigit then [] else [':', a]
  | cs => cs

/-- A power of ten with its sign, or nothing. -/
def isPower : List Char → Bool
  | [] => true
  | e :: s :: digits =>
    (e = 'e' || e = 'E') && (s = '+' || s = '-') && !digits.isEmpty && digits.all Char.isDigit
  | _ => false

/-- Digits with a point, with or without a power of ten. -/
def isPointed (cs : List Char) : Bool :=
  match unsigned cs with
  | d :: rest =>
    d.isDigit &&
      match rest.dropWhile isGroupDigit with
      | '.' :: fraction => isPower (fraction.dropWhile isGroupDigit)
      | _ => false
  | [] => false

/-- A point with digits after it, which takes no sign. -/
def isFraction : List Char → Bool
  | '.' :: d :: rest => d.isDigit && isPower (rest.dropWhile isGroupDigit)
  | _ => false

/-- Parts of sixty with a point after the last. -/
def isSixtiesPointed (cs : List Char) : Bool :=
  match unsigned cs with
  | d :: rest =>
    let parts := rest.dropWhile isGroupDigit
    d.isDigit && parts.head? == some ':' &&
      match afterSixties parts with
      | '.' :: fraction => fraction.all isGroupDigit
      | _ => false
  | [] => false

def isFloat (cs : List Char) : Bool :=
  isPointed cs || isFraction cs || isSixtiesPointed cs ||
    ([".inf", ".Inf", ".INF"].any fun w => w.toList == unsigned cs) ||
    ([".nan", ".NaN", ".NAN"].any fun w => w.toList == cs)

def isHexGroupDigit (c : Char) : Bool :=
  isGroupDigit c || ('a' ≤ c && c ≤ 'f') || ('A' ≤ c && c ≤ 'F')

def isInt (cs : List Char) : Bool :=
  match unsigned cs with
  | '0' :: 'b' :: rest => !rest.isEmpty && rest.all fun c => c = '0' || c = '1' || c = '_'
  | '0' :: 'x' :: rest => !rest.isEmpty && rest.all isHexGroupDigit
  | '0' :: rest => rest.all fun c => ('0' ≤ c && c ≤ '7') || c = '_'
  | d :: rest => d.isDigit && (afterSixties (rest.dropWhile isGroupDigit)).isEmpty
  | [] => false

/-- A run of one or two digits, and what follows. -/
def oneOrTwoDigits? : List Char → Option (List Char × List Char)
  | a :: b :: rest =>
    if a.isDigit then (if b.isDigit then some ([a, b], rest) else some ([a], b :: rest)) else none
  | [a] => if a.isDigit then some ([a], []) else none
  | [] => none

/-- A run of digits of a width, and what follows. -/
def digits? (width : Nat) (cs : List Char) : Option (List Char × List Char) :=
  let run := cs.take width
  if run.length = width ∧ run.all Char.isDigit then some (run, cs.drop width) else none

def char? (c : Char) : List Char → Option (List Char)
  | x :: rest => if x = c then some rest else none
  | [] => none

end Plain

/-- The parts of a timestamp, in digits. The clock is missing in a date. -/
structure TimestampText where
  year : List Char
  month : List Char
  day : List Char
  clock : Option (List Char × List Char × List Char × List Char)
  /-- `Z`, or a sign and hours and minutes. -/
  zone : Option (Option (Bool × List Char × List Char))

namespace TimestampText

/-- The zone at the end of a timestamp, blanks before it allowed. -/
def zone? (cs : List Char) : Option (Option (Option (Bool × List Char × List Char))) :=
  if cs.isEmpty then some none
  else match cs.dropWhile fun c => c = ' ' || c = '\t' with
    | ['Z'] => some (some none)
    | sign :: rest =>
      if sign = '+' ∨ sign = '-' then do
        let (hours, rest) ← Plain.oneOrTwoDigits? rest
        if rest.isEmpty then return some (some (sign = '-', hours, []))
        else
          let (minutes, rest) ← Plain.digits? 2 (← Plain.char? ':' rest)
          if rest.isEmpty then return some (some (sign = '-', hours, minutes)) else none
      else none
    | [] => none

/-- What follows a date: nothing, or a clock after a `T` or blanks. -/
def clock? (year month day cs : List Char) : Option TimestampText :=
  match cs with
  | [] => some ⟨year, month, day, none, none⟩
  | t :: rest => do
    let rest ←
      if t = 'T' ∨ t = 't' then some rest
      else if t = ' ' ∨ t = '\t' then some (rest.dropWhile fun c => c = ' ' || c = '\t')
      else none
    let (hour, rest) ← Plain.oneOrTwoDigits? rest
    let (minute, rest) ← Plain.digits? 2 (← Plain.char? ':' rest)
    let (second, rest) ← Plain.digits? 2 (← Plain.char? ':' rest)
    let (fraction, rest) := match rest with
      | '.' :: more => (more.takeWhile Char.isDigit, more.dropWhile Char.isDigit)
      | _ => ([], rest)
    return ⟨year, month, day, some (hour, minute, second, fraction), ← zone? rest⟩

/-- The parts of a text that has the form of a timestamp. Month and day may have one digit. -/
def ofChars? (cs : List Char) : Option TimestampText := do
  let (year, rest) ← Plain.digits? 4 cs
  let (month, rest) ← Plain.oneOrTwoDigits? (← Plain.char? '-' rest)
  let (day, rest) ← Plain.oneOrTwoDigits? (← Plain.char? '-' rest)
  clock? year month day rest

end TimestampText

namespace Plain

/-- The form of a timestamp; a date alone has two digits for month and day. -/
def isTimestamp (cs : List Char) : Bool :=
  match TimestampText.ofChars? cs with
  | some t => t.clock.isSome || (t.month.length == 2 && t.day.length == 2)
  | none => false

def tagOf (cs : List Char) : Tag :=
  if isBool cs then .bool
  else if isFloat cs then .float
  else if isInt cs then .int
  else if cs = ['<', '<'] then .merge
  else if isNull cs then .null
  else if isTimestamp cs then .timestamp
  else if cs = ['='] then .valueKey
  else .text

end Plain

/-- The tag of a scalar without one, if it is read as a plain scalar. A line break alone has none of
the forms. -/
def Tag.ofPlain (content : Text) : Tag :=
  match content.chars? with
  | none => .text
  | some ['\n'] => .text
  | some cs => Plain.tagOf (if cs.getLast? = some '\n' then cs.dropLast else cs)

end ManifestChain.Yaml
