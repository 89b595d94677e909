import ManifestChain.Fault
import ManifestChain.Number.Numeral
import ManifestChain.Text.Base64
import ManifestChain.Text.LetterCase.Lower
import ManifestChain.Yaml.Tag

/-!
# The values of scalars

The value of a text under the tag of a scalar. A tag may stand before any text, so the text need not
have the form that the tag is found by.
-/

namespace ManifestChain.Yaml

namespace Scalar

def withoutUnderscores (t : Text) : Text := t.filter (· ≠ .scalar '_')

/-- The sign in front of a number, and what follows it. An empty number is a fault. -/
def sign (t : Text) : Except Fault (Bool × Text) :=
  match t with
  | [] => .error .indexOutOfRange
  | c :: rest =>
    if c = .scalar '-' then .ok (true, rest)
    else if c = .scalar '+' then .ok (false, rest)
    else .ok (false, t)

def orBadValue {α : Type} : Option α → Except Fault α
  | some x => .ok x
  | none => .error .badValue

/-- The value of parts to the base of sixty. -/
def sixties (parts : List Int) : Int := parts.foldl (fun total p => total * 60 + p) 0

def unsignedInt (t : Text) : Except Fault Int := do
  if t = "0" then return 0
  else if t.startsWith "0b" then orBadValue (Numeral.int? 2 (t.drop 2))
  else if t.startsWith "0x" then orBadValue (Numeral.int? 16 (t.drop 2))
  else if t.startsWith "0" then orBadValue (Numeral.int? 8 t)
  else if t.isEmpty then throw .indexOutOfRange
  else if t.contains (.scalar ':') then
    return sixties (← (t.splitOn (.scalar ':')).mapM fun p => orBadValue (Numeral.int? 10 p))
  else orBadValue (Numeral.int? 10 t)

def int (t : Text) : Except Fault Value := do
  let (negative, rest) ← sign (withoutUnderscores t)
  let n ← unsignedInt rest
  return .int (if negative then -n else n)

/-- The sum of parts to the base of sixty, the last part first, each weighted and added in turn. -/
def sumSixties : Int → Binary64 → List Binary64 → Except Fault Binary64
  | _, total, [] => .ok total
  | base, total, p :: rest =>
    match Binary64.ofInt? base with
    | some b => sumSixties (base * 60) (total.add (p.mul b)) rest
    | none => .error .outOfRange

def unsignedFloat (t : Text) : Except Fault Binary64 := do
  if t = ".inf" then return .infinite false
  else if t = ".nan" then return .nan
  else if t.contains (.scalar ':') then
    let parts ← (t.splitOn (.scalar ':')).mapM fun p => orBadValue (Numeral.float? p)
    sumSixties 1 .zero parts.reverse
  else orBadValue (Numeral.float? t)

/-- Whether a text is the word for not-a-number, with or without a sign. -/
def isNanWord (t : Text) : Bool :=
  match sign (withoutUnderscores t).lower with
  | .ok (_, rest) => rest == Text.ofString ".nan"
  | .error _ => false

def float (t : Text) : Except Fault Value := do
  let (negative, rest) ← sign (withoutUnderscores t).lower
  let x ← unsignedFloat rest
  return .float (if negative then x.neg else x)

def bool (t : Text) : Except Fault Value :=
  let word := t.lower
  if word = "yes" ∨ word = "true" ∨ word = "on" then .ok (.bool true)
  else if word = "no" ∨ word = "false" ∨ word = "off" then .ok (.bool false)
  else .error .missingKey

def binary (t : Text) : Except Fault Value :=
  match t.chars? with
  | some cs =>
    if cs.all fun c => c.toNat < 0x80 then
      match Base64.decode? cs with
      | some bytes => .ok (.bytes bytes)
      | none => .error .malformedYaml
    else .error .malformedYaml
  | none => .error .malformedYaml

def natOf (digits : List Char) : Int := Nat.ofDigitChars 10 digits 0

def offset (negative : Bool) (hours minutes : List Char) : Except Fault Offset :=
  let seconds := natOf hours * 3600 + natOf minutes * 60
  orBadValue (Offset.ofSeconds? (if negative then -seconds else seconds))

def timestamp (mark : Mark) (t : Text) : Except Fault Value := do
  let cs ← match t.chars? with
    | some cs => pure cs
    | none => throw .noSuchMember
  let cs := if cs.getLast? = some '\n' then cs.dropLast else cs
  match TimestampText.ofChars? cs with
  | none => throw .noSuchMember
  | some p =>
    let date := Date.ofParts? (natOf p.year) (natOf p.month) (natOf p.day)
    match p.clock with
    | none => return .date mark (← orBadValue date)
    | some (hour, minute, second, fraction) =>
      let micros := fraction.take 6 ++ List.replicate (6 - fraction.length) '0'
      let zone ← match p.zone with
        | none => pure none
        | some none => (offset false [] []).map some
        | some (some (negative, hours, minutes)) => (offset negative hours minutes).map some
      let clock := Clock.ofParts? (natOf hour) (natOf minute) (natOf second) (natOf micros)
      return .timestamp mark ⟨← orBadValue date, ← orBadValue clock, zone⟩

end Scalar

/-- The value of a text under a tag. Only a scalar itself can be a timestamp; `n` is its number. -/
def Scalar.value (n : Nat) (isItself : Bool) (tag : Tag) (t : Text) : Except Fault Value :=
  match tag with
  | .null => .ok .null
  | .bool => bool t
  | .int => int t
  | .float => float t
  | .binary => binary t
  | .timestamp => if isItself then timestamp (some n) t else .error .wrongKind
  | .text => .ok (.text t)
  | _ => .error .malformedYaml

end ManifestChain.Yaml
