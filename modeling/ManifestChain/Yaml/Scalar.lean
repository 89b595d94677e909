import ManifestChain.Fault
import ManifestChain.Number.Numeral
import ManifestChain.Yaml.Cursor

/-!
# Reading the scalars of a YAML stream

Plain, quoted and block scalars. A plain or quoted scalar may run over several lines: a single line
break in it becomes a blank, and of several the first is dropped. A block scalar keeps its lines or
folds them by the same rule.
-/

namespace ManifestChain.Yaml

/-- What a letter stands for after a backslash in double quotes. -/
def escaped? : Char → Option Char
  | '0' => some '\x00'
  | 'a' => some '\x07'
  | 'b' => some '\x08'
  | 't' => some '\t'
  | '\t' => some '\t'
  | 'n' => some '\n'
  | 'v' => some '\x0b'
  | 'f' => some '\x0c'
  | 'r' => some '\r'
  | 'e' => some '\x1b'
  | ' ' => some ' '
  | '"' => some '"'
  | '\\' => some '\\'
  | '/' => some '/'
  | 'N' => some '\x85'
  | '_' => some '\xa0'
  | 'L' => some '\u2028'
  | 'P' => some '\u2029'
  | _ => none

/-- How many hexadecimal digits follow a letter after a backslash. -/
def escapeWidth? : Char → Option Nat
  | 'x' => some 2
  | 'u' => some 4
  | 'U' => some 8
  | _ => none

/-- The code point of a number. One beyond the last code point is no value, and one beyond 31 bits
out of range. -/
def codePoint (n : Nat) : Except Fault CodePoint :=
  match CodePoint.ofNat? n with
  | some c => .ok c
  | none => .error (if n < 0x80000000 then .badValue else .outOfRange)

namespace Scan

/-- A line break and the empty lines after it, folded. -/
def folded (br breaks : List Char) : List Char :=
  if br != ['\n'] then br ++ breaks else if breaks.isEmpty then [' '] else breaks

/-! ### Quoted scalars -/

/-- The line breaks at the cursor with the blanks between them, up to other content. A document
separator at the start of a line is refused. -/
def quotedBreaks : Nat → Scan (List Char)
  | 0 => malformed
  | fuel + 1 => do
    if ← atSeparator then malformed
    skipWhile fun x => x = ' ' || x = '\t'
    if isBreak (← peek) then
      let br ← lineBreak
      return br ++ (← quotedBreaks fuel)
    else return []

/-- What an escape after a backslash in double quotes stands for. A line break that is escaped
leaves out the blanks around it. -/
def escape : Scan Text := do
  let x ← peek
  match escaped? x, escapeWidth? x with
  | some y, _ =>
    skip 1
    return [.scalar y]
  | none, some width =>
    skip 1
    let c ← codePoint (← hexNumber width)
    skip width
    return [c]
  | none, none =>
    if isBreak x then
      let _ ← lineBreak
      return Text.ofChars (← quotedBreaks (← fuel))
    else malformed

/-- What stands at a character that does not stand for itself everywhere: a piece of the content, or
nothing at the closing quote. -/
def quotedPiece (double : Bool) : Scan (Option Text) := do
  let x ← peek
  if x = '"' && double then
    skip 1
    return none
  else if x = '\'' && !double then
    if (← look 1) = '\'' then
      skip 2
      return some ['\'']
    else
      skip 1
      return none
  else if x = '\\' && double then
    skip 1
    return some (← escape)
  else if x = '\'' || x = '"' || x = '\\' then
    skip 1
    return some [.scalar x]
  else
    let blanks ← span fun y => y = ' ' || y = '\t'
    let y ← peek
    if y = endMark then malformed
    else if isBreak y then
      let br ← lineBreak
      return some (Text.ofChars (folded br (← quotedBreaks (← fuel))))
    else return some (Text.ofChars blanks)

def quotedContent (double : Bool) : Nat → Scan Text
  | 0 => malformed
  | fuel + 1 => do
    let run ← span fun x => !(x = '\'' || x = '"' || x = '\\' || isGap x)
    match ← quotedPiece double with
    | none => return Text.ofChars run
    | some piece => return Text.ofChars run ++ piece ++ (← quotedContent double fuel)

def quotedScalar (double : Bool) : Scan Text := do
  skip 1
  quotedContent double (← fuel)

/-! ### Plain scalars -/

/-- Whether a plain scalar goes on over a colon before a character. In flow context the flow
indicators stop it there. -/
def colonGoesOn (flow : Bool) (y : Char) : Bool :=
  !(isGap y || (flow && (y = ',' || y = '[' || y = ']' || y = '\x7b' || y = '\x7d')))

/-- Whether a plain scalar stops at a character other than a colon. -/
def plainStops (flow : Bool) (x : Char) : Bool :=
  isGap x || (flow && (x = ',' || x = '?' || x = '[' || x = ']' || x = '\x7b' || x = '\x7d'))

/-- The number of characters up to where a plain scalar stops. -/
def plainLength (flow : Bool) : List Char → Nat
  | [] => 0
  | [x] => if x = ':' || plainStops flow x then 0 else 1
  | x :: y :: rest =>
    if x = ':' then if colonGoesOn flow y then plainLength flow (y :: rest) + 1 else 0
    else if plainStops flow x then 0
    else plainLength flow (y :: rest) + 1

/-- The characters of a plain scalar up to where it stops. To see that it stops at a colon one has
to look at what follows. -/
def plainRun (flow : Bool) : Scan (List Char) := do
  let rest := (← get).rest
  let run := rest.take (plainLength flow rest)
  skip run.length
  if (← peek) = ':' then
    let _ ← look 1
  return run

/-- The blank lines between the lines of a plain scalar; none before a document separator. -/
def plainBreaks : Nat → Scan (Option (List Char))
  | 0 => return some []
  | fuel + 1 => do
    skipWhile (· = ' ')
    if isBreak (← peek) then
      let br ← lineBreak
      if ← atSeparator then return none
      return (← plainBreaks fuel).map (br ++ ·)
    else return some []

/-- The blanks and line breaks after a piece of a plain scalar, folded, and whether a line ended. -/
def plainSpaces : Scan (List Char × Bool) := do
  let blanks ← span (· = ' ')
  if isBreak (← peek) then
    let br ← lineBreak
    if ← atSeparator then return ([], true)
    match ← plainBreaks (← fuel) with
    | none => return ([], true)
    | some breaks => return (folded br breaks, true)
  else return (blanks, false)

/-- A plain scalar after some folded blanks: its content, and whether a line ended after its last
piece. Outside flow context its lines are indented by `indent` at least. -/
def plainFrom (flow : Bool) (indent : Int) : Nat → List Char → Bool → Scan (List Char × Bool)
  | 0, _, ended => return ([], ended)
  | fuel + 1, spaces, ended => do
    if (← peek) = '#' then return ([], ended)
    let run ← plainRun flow
    if run.isEmpty then return ([], ended)
    let (more, ended) ← plainSpaces
    let column : Int := (← get).column
    if more.isEmpty || (← peek) = '#' || (!flow && column < indent) then
      return (spaces ++ run, ended)
    let (tail, ended) ← plainFrom flow indent fuel more ended
    return (spaces ++ run ++ tail, ended)

def plainScalar (flow : Bool) (indent : Int) : Scan (Text × Bool) := do
  let (content, ended) ← plainFrom flow indent (← fuel) [] false
  return (Text.ofChars content, ended)

/-! ### Block scalars -/

end Scan

/-- How a block scalar ends: with the last line break, without it, or with all that follow. -/
inductive Chomping where
  | clip
  | strip
  | keep
deriving DecidableEq, Repr

/-- The sign that tells how a block scalar ends. -/
def chomping? : Char → Option Chomping
  | '+' => some .keep
  | '-' => some .strip
  | _ => none

namespace Scan

/-- The sign at the cursor that tells how a block scalar ends, skipped if it is there. -/
def chomping : Scan (Option Chomping) := do
  match chomping? (← peek) with
  | some c =>
    skip 1
    return some c
  | none => return none

/-- The digit at the cursor that tells how far a block scalar is indented, skipped if it is there;
zero is refused. -/
def increment : Scan (Option Nat) := do
  let x ← peek
  if x = '0' then malformed
  else if x.isDigit then
    skip 1
    return some (x.toNat - '0'.toNat)
  else return none

/-- The header of a block scalar after its indicator: both marks in either order, and the rest of
the line. -/
def blockHeader : Scan (Chomping × Option Nat) := do
  let (chomp, indent) ← do
    match ← chomping with
    | some c => pure (some c, ← increment)
    | none =>
      match ← increment with
      | some n => pure (← chomping, some n)
      | none => pure (none, none)
  if !isSpaceOrBreak (← peek) then malformed
  endLine
  return (chomp.getD .clip, indent)

/-- The empty lines at the start of a block scalar, and the greatest column that blanks reach. -/
def blockIndentation : Nat → Nat → Scan (List Char × Nat)
  | 0, reached => return ([], reached)
  | fuel + 1, reached => do
    let blanks ← span (· = ' ')
    let column := (← get).column
    let reached := if blanks.isEmpty then reached else max reached column
    if isBreak (← peek) then
      let br ← lineBreak
      let (more, reached) ← blockIndentation fuel reached
      return (br ++ more, reached)
    else return ([], reached)

def skipIndent (indent : Nat) : Scan Unit := do
  let c ← get
  skip ((c.rest.take (indent - c.column)).takeWhile (· = ' ')).length

/-- The empty lines between lines of a block scalar. -/
def blockBreaks (indent : Nat) : Nat → Scan (List Char)
  | 0 => return []
  | fuel + 1 => do
    skipIndent indent
    if isBreak (← peek) then
      let br ← lineBreak
      return br ++ (← blockBreaks indent fuel)
    else return []

/-- Whether a line of a block scalar begins at the cursor. -/
def atBlockLine (indent : Nat) : Scan Bool := do
  let x ← peek
  return (← get).column = indent && x != endMark

def atBlank : Scan Bool := do
  let x ← peek
  return x = ' ' || x = '\t'

/-- The lines of a block scalar after some empty ones: the content, and the line break and the empty
lines at its end. -/
def blockLines (folded : Bool) (indent : Nat) :
    Nat → List Char → Scan (List Char × List Char × List Char)
  | 0, breaks => return ([], [], breaks)
  | fuel + 1, breaks => do
    if ← atBlockLine indent then
      let blankFirst ← atBlank
      let line ← span fun x => !isBreakOrEnd x
      let br ← lineBreak
      let following ← blockBreaks indent (← Scan.fuel)
      if ← atBlockLine indent then
        let joint :=
          if folded && br == ['\n'] && !blankFirst && !(← atBlank) then
            (if following.isEmpty then [' '] else [])
          else br
        let (content, last, trailing) ← blockLines folded indent fuel following
        return (breaks ++ line ++ joint ++ content, last, trailing)
      else return (breaks ++ line, br, following)
    else return ([], [], breaks)

/-- A block scalar from its indicator on, in a block indented by `parent`. -/
def blockScalar (folded : Bool) (parent : Int) : Scan Text := do
  skip 1
  let (chomp, increment) ← blockHeader
  let least := (max (parent + 1) 1).toNat
  let (breaks, indent) ← do
    match increment with
    | some n =>
      let indent := least + n - 1
      pure (← blockBreaks indent (← fuel), indent)
    | none =>
      let (breaks, reached) ← blockIndentation (← fuel) 0
      pure (breaks, max least reached)
  let (content, last, trailing) ← blockLines folded indent (← fuel) breaks
  let tail := match chomp with
    | .strip => []
    | .clip => last
    | .keep => last ++ trailing
  return Text.ofChars (content ++ tail)

end Scan

end ManifestChain.Yaml
