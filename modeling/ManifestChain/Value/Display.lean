import ManifestChain.Fault
import ManifestChain.Number.Layout
import ManifestChain.Number.Numeral
import ManifestChain.Text.Quoted

/-!
# Values in messages

A value is shown either plainly, a text as it is and a date in ISO form, or as it would be written
inside a container, texts quoted and a read-only mapping called by name. Showing fails for an
integer with more digits than are written.
-/

namespace ManifestChain

namespace Value

/-- Numbers in messages: a single digit carries no fraction before a power of ten. -/
def numberLayout : Layout := ⟨false, "inf", "nan"⟩

/-- The numeral of an integer, a fault if it has too many digits. -/
def showInt (n : Int) : Except Fault Text :=
  match Numeral.ofInt? n with
  | some t => .ok t
  | none => .error .badValue

/-- A date as its year, month and day, called by name. -/
def showDate (d : Date) : Text :=
  "datetime.date(" ++ Text.join ", " ([d.year, d.month, d.day].map Text.ofNat) ++ ")"

/-- An offset in seconds; a negative one as a day less and the seconds of that day. -/
def showOffset (o : Offset) : Text :=
  if o.seconds = 0 then "datetime.timezone.utc"
  else
    let delta : Text :=
      if o.seconds < 0 then "days=-1, seconds=" ++ Text.ofNat (86400 + o.seconds).toNat
      else "seconds=" ++ Text.ofNat o.seconds.toNat
    "datetime.timezone(datetime.timedelta(" ++ delta ++ "))"

/-- A timestamp as its fields; seconds and microseconds are left out where they are zero to the
end. -/
def showTimestamp (t : Timestamp) : Text :=
  let c := t.clock
  let first := [t.date.year, t.date.month, t.date.day, c.hour, c.minute]
  let rest := if c.micros ≠ 0 then [c.second, c.micros] else if c.second ≠ 0 then [c.second] else []
  let zone : List Text := match t.offset with
    | some o => ["tzinfo=" ++ showOffset o]
    | none => []
  "datetime.datetime(" ++ Text.join ", " ((first ++ rest).map Text.ofNat ++ zone) ++ ")"

/-- The parts between brackets, with commas. -/
def bracketed (opening closing : Text) (parts : List Text) : Text :=
  opening ++ Text.join ", " parts ++ closing

/-- A tuple of one item keeps a comma. -/
def tupled : List Text → Text
  | [part] => "(" ++ part ++ ",)"
  | parts => bracketed "(" ")" parts

mutual

/-- A value as it is written inside a container. -/
def quoted : Value → Except Fault Text
  | null => .ok "None"
  | bool b => .ok (if b then "True" else "False")
  | int n => showInt n
  | float x => .ok (numberLayout.number x)
  | text t => .ok (Quoted.text t)
  | bytes b => .ok (Quoted.bytes b)
  | list _ items => do return bracketed "[" "]" (← quotedItems items)
  | tuple items => do return tupled (← quotedItems items)
  | set _ items => do
    if items.isEmpty then return "set()"
    else return bracketed "\x7b" "\x7d" (← quotedItems items)
  | map _ entries => do return bracketed "\x7b" "\x7d" (← quotedEntries entries)
  | view entries => do
    return "mappingproxy(" ++ bracketed "\x7b" "\x7d" (← quotedEntries entries) ++ ")"
  | date _ d => .ok (showDate d)
  | timestamp _ t => .ok (showTimestamp t)
  | foreign => .ok "<object>"
  | rendering _ => .ok "<Stub>"
  | templateRecord name labels payload => do
    let n ← quoted name
    let ls ← quotedEntries labels
    let p ← quoted payload
    return "ResourceTemplate(name=" ++ n ++ ", labels=mappingproxy(" ++
      bracketed "\x7b" "\x7d" ls ++ "), payload=" ++ p ++ ")"
  | application name selector templates => do
    let n ← quoted name
    let ls ← quotedEntries selector
    let ts ← quotedItems templates
    return "WrappedApplication(name=" ++ n ++ ", selector=mappingproxy(" ++
      bracketed "\x7b" "\x7d" ls ++ "), templates=" ++ tupled ts ++ ")"
  | deploymentChild manifest containers => do
    let m ← quoted manifest
    let cs ← quoted containers
    return "DeploymentChild(manifest=" ++ m ++ ", containers=" ++ cs ++ ")"
  | serviceChild manifest => do return "ServiceChild(manifest=" ++ (← quoted manifest) ++ ")"
  | otherChild value reason => do
    let v ← quoted value
    let r ← quoted reason
    return "OpaqueChild(value=" ++ v ++ ", reason=" ++ r ++ ")"
  | translator t => .ok ("<" ++ t.typeName ++ ">")
  | constant _ => .ok "<Constant>"

def quotedItems : List Value → Except Fault (List Text)
  | [] => .ok []
  | x :: xs => do
    let t ← quoted x
    return t :: (← quotedItems xs)

/-- The entries of a mapping, each key with a colon before its value. -/
def quotedEntries : List (Value × Value) → Except Fault (List Text)
  | [] => .ok []
  | (k, v) :: es => do
    let kt ← quoted k
    let vt ← quoted v
    return (kt ++ ": " ++ vt) :: (← quotedEntries es)

end

/-- A value in running text. A read-only mapping shows as a mapping. -/
def shown : Value → Except Fault Text
  | text t => .ok t
  | date _ d => .ok d.text
  | timestamp _ t => .ok (t.text " ")
  | view entries => (ofEntries entries).quoted
  | v => v.quoted

end Value

end ManifestChain
