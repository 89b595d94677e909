import ManifestChain.Fault
import ManifestChain.Json.Basic
import ManifestChain.Number.Numeral
import ManifestChain.Text.Encoding

/-!
# Reading JSON documents

Beside the standard's documents the reader takes the words for an infinity and for not-a-number, and
surrogates without a partner, escaped or not. A number with a fraction or a power of ten is a
floating point number, any other an integer; an integer of more than 4300 digits is refused as a
value, all other deviations as malformed.
-/

namespace ManifestChain

namespace Json

/-- The four characters that may stand between tokens. -/
def isBlank (c : CodePoint) : Bool :=
  c = .scalar ' ' || c = .scalar '\t' || c = .scalar '\n' || c = .scalar '\r'

def skipBlank (t : Text) : Text := t.dropWhile isBlank

def hex4? (a b c d : CodePoint) : Option Nat := do
  let w ← a.char? >>= Numeral.digitIn? 16
  let x ← b.char? >>= Numeral.digitIn? 16
  let y ← c.char? >>= Numeral.digitIn? 16
  let z ← d.char? >>= Numeral.digitIn? 16
  return ((w * 16 + x) * 16 + y) * 16 + z

/-- What a letter stands for after a backslash. -/
def unescape? : CodePoint → Option CodePoint
  | .scalar '"' => some '"'
  | .scalar '\\' => some '\\'
  | .scalar '/' => some '/'
  | .scalar 'b' => some '\x08'
  | .scalar 'f' => some '\x0c'
  | .scalar 'n' => some '\n'
  | .scalar 'r' => some '\r'
  | .scalar 't' => some '\t'
  | _ => none

/-- The code point of two surrogates, a high one and a low one. -/
def joined? (high low : Nat) : Option CodePoint :=
  if 0xD800 ≤ high ∧ high < 0xDC00 ∧ 0xDC00 ≤ low ∧ low < 0xE000 then
    CodePoint.ofNat? (0x10000 + (high - 0xD800) * 0x400 + (low - 0xDC00))
  else none

/-- The content of a string up to its closing quote, and what follows the quote. An escaped high
surrogate is joined with an escaped low one right after it. -/
def parseText : Text → Option (Text × Text)
  | .scalar '"' :: rest => some ([], rest)
  | .scalar '\\' :: .scalar 'u' :: a :: b :: c :: d :: rest => do
    let n ← hex4? a b c d
    match rest with
    | .scalar '\\' :: .scalar 'u' :: e :: f :: g :: h :: more =>
      match (hex4? e f g h).bind (joined? n) with
      | some x =>
        let (t, after) ← parseText more
        return (x :: t, after)
      | none =>
        let x ← CodePoint.ofNat? n
        let (t, after) ← parseText (.scalar '\\' :: .scalar 'u' :: e :: f :: g :: h :: more)
        return (x :: t, after)
    | rest =>
      let x ← CodePoint.ofNat? n
      let (t, after) ← parseText rest
      return (x :: t, after)
  | .scalar '\\' :: c :: rest => do
    let x ← unescape? c
    let (t, after) ← parseText rest
    return (x :: t, after)
  | c :: rest =>
    if c.value < 0x20 ∨ c = .scalar '\\' then none
    else do
      let (t, after) ← parseText rest
      return (c :: t, after)
  | [] => none

def takeDigits : Text → List Char × Text
  | .scalar c :: rest =>
    if c.isDigit then
      let (digits, after) := takeDigits rest
      (c :: digits, after)
    else ([], .scalar c :: rest)
  | rest => ([], rest)

/-- The digits of a whole number: a zero alone, or digits that do not start with one. -/
def takeWhole? : Text → Option (List Char × Text)
  | .scalar '0' :: rest => some (['0'], rest)
  | t => match takeDigits t with
    | ([], _) => none
    | digits => some digits

/-- A point and the digits after it, if there are any. -/
def takeFraction : Text → Option (List Char) × Text
  | .scalar '.' :: rest => match takeDigits rest with
    | ([], _) => (none, .scalar '.' :: rest)
    | (digits, after) => (some digits, after)
  | t => (none, t)

/-- A power of ten after its letter: a sign that may be missing, and digits. -/
def takePower (t : Text) : Option Int × Text :=
  match t with
  | .scalar e :: rest =>
    if e = 'e' ∨ e = 'E' then
      let (negative, digitsFrom) := match rest with
        | .scalar '-' :: more => (true, more)
        | .scalar '+' :: more => (false, more)
        | more => (false, more)
      match takeDigits digitsFrom with
      | ([], _) => (none, t)
      | (digits, after) =>
        let n : Int := Nat.ofDigitChars 10 digits 0
        (some (if negative then -n else n), after)
    else (none, t)
  | _ => (none, t)

/-- A number without its sign. -/
def parseUnsigned (negative : Bool) (t : Text) : Except Fault (Json × Text) :=
  match takeWhole? t with
  | none => .error .malformedJson
  | some (whole, afterWhole) =>
    let (fraction, afterFraction) := takeFraction afterWhole
    let (power, after) := takePower afterFraction
    match fraction, power with
    | none, none =>
      match Numeral.ofDigits? whole with
      | some n => .ok (.int (if negative then -(n : Int) else n), after)
      | none => .error .badValue
    | _, _ =>
      let d := Decimal.ofDigits whole (fraction.getD []) (power.getD 0)
      .ok (.float (.ofDecimal negative d), after)

/-- What follows a word at the start of a text. -/
def afterWord? (word t : Text) : Option Text :=
  if t.startsWith word then some (t.drop word.length) else none

/-- A number, or one of the words that are values. -/
def parseLeaf (t : Text) : Except Fault (Json × Text) :=
  let words : List (Text × Json) :=
    [("null", .null), ("true", .bool true), ("false", .bool false), ("NaN", .float .nan),
      ("Infinity", .float (.infinite false)), ("-Infinity", .float (.infinite true))]
  match words.findSome? fun w => (afterWord? w.1 t).map (w.2, ·) with
  | some r => .ok r
  | none => match t with
    | .scalar '-' :: rest => parseUnsigned true rest
    | t => parseUnsigned false t

mutual

/-- A value at the start of a text, read in at most `fuel` steps inward or along, and what follows
it. The length of the text is enough. -/
def parseValue : Nat → Text → Except Fault (Json × Text)
  | 0, _ => .error .malformedJson
  | _ + 1, .scalar '"' :: rest =>
    match parseText rest with
    | some (t, after) => .ok (.text t, after)
    | none => .error .malformedJson
  | fuel + 1, .scalar '[' :: rest =>
    match skipBlank rest with
    | .scalar ']' :: after => .ok (.array [], after)
    | first => do
      let (items, after) ← parseItems fuel first
      return (.array items, after)
  | fuel + 1, .scalar '\x7b' :: rest =>
    match skipBlank rest with
    | .scalar '\x7d' :: after => .ok (.object [], after)
    | first => do
      let (members, after) ← parseMembers fuel first
      return (.ofMembers members, after)
  | _ + 1, t => parseLeaf t

/-- The items of an array from the first one to the closing bracket. -/
def parseItems : Nat → Text → Except Fault (List Json × Text)
  | 0, _ => .error .malformedJson
  | fuel + 1, t => do
    let (j, after) ← parseValue fuel t
    match skipBlank after with
    | .scalar ']' :: rest => return ([j], rest)
    | .scalar ',' :: rest =>
      let (js, last) ← parseItems fuel (skipBlank rest)
      return (j :: js, last)
    | _ => .error .malformedJson

/-- The members of an object from the first one to the closing brace. -/
def parseMembers : Nat → Text → Except Fault (List (Text × Json) × Text)
  | 0, _ => .error .malformedJson
  | fuel + 1, .scalar '"' :: rest =>
    match parseText rest with
    | none => .error .malformedJson
    | some (key, afterKey) =>
      match skipBlank afterKey with
      | .scalar ':' :: valueFrom => do
        let (j, after) ← parseValue fuel (skipBlank valueFrom)
        match skipBlank after with
        | .scalar '\x7d' :: rest => return ([(key, j)], rest)
        | .scalar ',' :: rest =>
          let (ms, last) ← parseMembers fuel (skipBlank rest)
          return ((key, j) :: ms, last)
        | _ => .error .malformedJson
      | _ => .error .malformedJson
  | _ + 1, _ => .error .malformedJson

end

/-- The document a text is, blanks around it allowed. -/
def parse (t : Text) : Except Fault Json := do
  let (j, after) ← parseValue (t.length + 1) (skipBlank t)
  if (skipBlank after).isEmpty then return j else .error .malformedJson

/-- The document that bytes are in an encoding told from the first of them. -/
def ofBytes (bytes : List UInt8) : Except Fault Json :=
  match Text.ofBytes? bytes with
  | some t => parse t
  | none => .error .undecodable

end Json

end ManifestChain
