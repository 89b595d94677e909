import ManifestChain.Number.Numeral
import ManifestChain.Yaml.Source

/-!
# A place in a YAML stream

A cursor is what is left of a stream, with the number of characters before it, its line and its
column. The end of the stream shows as the character zero, which no stream holds. A stream may also
break off where it cannot be read: then to look at anything further is a fault.
-/

namespace ManifestChain.Yaml

/-- The character that shows at the end of a stream. -/
def endMark : Char := '\x00'

def isBreak (c : Char) : Bool :=
  c = '\n' || c = '\r' || c = '\x85' || c = '\u2028' || c = '\u2029'

def isBreakOrEnd (c : Char) : Bool := isBreak c || c = endMark

/-- What may follow an indicator in block context. -/
def isGap (c : Char) : Bool := c = ' ' || c = '\t' || isBreakOrEnd c

/-- What may follow a name or a header: a blank, but no tabulator. -/
def isSpaceOrBreak (c : Char) : Bool := c = ' ' || isBreakOrEnd c

/-- The characters of the names of anchors, directives and tag handles. -/
def isNameChar (c : Char) : Bool := c.isAlphanum || c = '-' || c = '_'

structure Cursor where
  rest : List Char
  barrier : Option Fault
  /-- The number of characters of the whole stream. -/
  size : Nat
  index : Nat
  line : Nat
  column : Nat

namespace Cursor

def ofSource (s : Source) : Cursor := ⟨s.chars, s.barrier, s.chars.length, 0, 0, 0⟩

def look (c : Cursor) (distance : Nat) : Except Fault Char :=
  match c.rest.drop distance, c.barrier with
  | x :: _, _ => .ok x
  | [], none => .ok endMark
  | [], some f => .error f

/-- The cursor after one character. A byte order mark takes no column. -/
def next (c : Cursor) : Cursor :=
  match c.rest with
  | [] => c
  | x :: rest =>
    if x = '\n' || x = '\x85' || x = '\u2028' || x = '\u2029' ||
        (x = '\r' && rest.headD endMark != '\n') then
      { c with rest, index := c.index + 1, line := c.line + 1, column := 0 }
    else
      { c with
        rest, index := c.index + 1, column := if x = '\uFEFF' then c.column else c.column + 1 }

def skip : Nat → Cursor → Cursor
  | 0, c => c
  | n + 1, c => skip n c.next

/-- The next characters, fewer at the end of the stream. -/
def ahead (c : Cursor) (width : Nat) : Except Fault (List Char) := do
  let _ ← c.look (width - 1)
  return c.rest.take width

def atSeparator (c : Cursor) : Except Fault Bool := do
  let lead ← c.ahead 3
  if lead == ['-', '-', '-'] || lead == ['.', '.', '.'] then return isGap (← c.look 3)
  else return false

end Cursor

abbrev Scan := StateT Cursor (Except Fault)

namespace Scan

def malformed {α : Type} : Scan α := throw .malformedYaml

/-- More than the number of steps in which the rest of the stream can be read. -/
def fuel : Scan Nat := do return (← get).size + 1

def look (distance : Nat) : Scan Char := do (← get).look distance

def peek : Scan Char := look 0

def atSeparator : Scan Bool := do (← get).atSeparator

/-- Goes some characters further, to a place that can be read. -/
def skip (width : Nat) : Scan Unit := do
  modify (Cursor.skip width)
  let _ ← peek

/-- The longest run of characters with a property, which is skipped. -/
def span (p : Char → Bool) : Scan (List Char) := do
  let run := (← get).rest.takeWhile p
  skip run.length
  return run

def skipWhile (p : Char → Bool) : Scan Unit := do
  let _ ← span p

/-- The line break at the cursor in its normal form, which is skipped; nothing if there is none. -/
def lineBreak : Scan (List Char) := do
  let x ← peek
  if x = '\n' || x = '\r' || x = '\x85' then
    let pair ← (← get).ahead 2
    skip (if pair == ['\r', '\n'] then 2 else 1)
    return ['\n']
  else if x = '\u2028' || x = '\u2029' then
    skip 1
    return [x]
  else return []

/-- Skips blanks and then a comment, if there are any. -/
def skipBlanks : Scan Unit := do
  skipWhile (· = ' ')
  if (← peek) = '#' then skipWhile fun x => !isBreakOrEnd x

/-- Skips blanks, a comment, and the end of the line, where nothing else may stand. -/
def endLine : Scan Unit := do
  skipBlanks
  if isBreakOrEnd (← peek) then
    let _ ← lineBreak
  else malformed

/-- The number that some hexadecimal digits at the cursor stand for, which are not skipped. -/
def hexNumber (width : Nat) : Scan Nat :=
  (List.range width).foldlM
    (fun total k => do
      match Numeral.digitIn? 16 (← look k) with
      | some d => return total * 16 + d
      | none => malformed) 0

end Scan

end ManifestChain.Yaml
