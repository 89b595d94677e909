import ManifestChain.Text.Basic

/-!
# Writing with indentation

A pen knows the column it stands in, whether a blank is needed before what comes next, and whether
only indentation stands in the line so far. Lines are broken at a blank once they are longer than 80
characters.
-/

namespace ManifestChain.Yaml

structure Pen where
  /-- What has been written, the last character first. -/
  out : List Char
  column : Nat
  /-- Whether the next indicator needs no blank before it. -/
  isSpaced : Bool
  /-- Whether the line holds nothing but indentation and indicators of blocks. -/
  isIndented : Bool
  /-- Whether the document could go on with what comes next. -/
  isOpen : Bool

namespace Pen

def start : Pen := ⟨[], 0, true, true, false⟩

def width : Nat := 80

/-- Writes characters of one line. -/
def put (cs : List Char) (p : Pen) : Pen :=
  { p with out := cs.reverse ++ p.out, column := p.column + cs.length }

/-- Writes an indicator, after a blank if one is needed there. -/
def indicator (cs : List Char) (needsSpace spaced blockStart : Bool) (p : Pen) : Pen :=
  let data := if p.isSpaced || !needsSpace then cs else ' ' :: cs
  { p.put data with
    isSpaced := spaced, isIndented := p.isIndented && blockStart, isOpen := false }

def lineBreak (p : Pen) : Pen :=
  { p with out := '\n' :: p.out, column := 0, isSpaced := true, isIndented := true }

/-- Goes to a column of a line in which nothing but indentation stands. -/
def indentTo (column : Nat) (p : Pen) : Pen :=
  let p :=
    if !p.isIndented || column < p.column || (p.column = column && !p.isSpaced) then p.lineBreak
    else p
  if p.column < column then
    { p.put (List.replicate (column - p.column) ' ') with isSpaced := true }
  else p

/-- Goes to a column of a new line inside a scalar. -/
def continueAt (column : Nat) (p : Pen) : Pen :=
  { p.indentTo column with isSpaced := false, isIndented := false }

/-- The maximal runs of blanks, of line feeds, and of other characters. -/
def runs : List Char → List (List Char)
  | [] => []
  | c :: rest =>
    match runs rest with
    | (d :: run) :: more =>
      if (c = ' ' && d = ' ') || (c = '\n' && d = '\n') ||
          (c ≠ ' ' && c ≠ '\n' && d ≠ ' ' && d ≠ '\n') then
        (c :: d :: run) :: more
      else [c] :: (d :: run) :: more
    | more => [c] :: more

/-- The runs of a plain scalar; a single blank beyond the width becomes a line break. -/
def plainRuns (indent : Nat) (split : Bool) : List (List Char) → Pen → Pen
  | [], p => p
  | run :: rest, p =>
    if run = [' '] && width < p.column && split then
      plainRuns indent split rest (p.continueAt indent)
    else plainRuns indent split rest (p.put run)

def plain (indent : Nat) (split : Bool) (cs : List Char) (p : Pen) : Pen :=
  if cs.isEmpty then p
  else
    let p := if p.isSpaced then p else p.put [' ']
    plainRuns indent split (runs cs) { p with isSpaced := false, isIndented := false }

/-- The runs of a scalar in single quotes: line feeds are written once more than they count, quotes
twice, and a single blank beyond the width becomes a line break unless it is first or last. -/
def singleQuotedRuns (indent : Nat) (split : Bool) : Bool → List (List Char) → Pen → Pen
  | _, [], p => p
  | first, run :: rest, p =>
    let p :=
      if run.head? = some '\n' then
        (run.foldl (fun p _ => p.lineBreak) p.lineBreak).indentTo indent
      else if run = [' '] && width < p.column && split && !first && !rest.isEmpty then
        p.indentTo indent
      else p.put (run.flatMap fun c => if c = '\'' then ['\'', '\''] else [c])
    singleQuotedRuns indent split false rest p

def singleQuoted (indent : Nat) (split : Bool) (cs : List Char) (p : Pen) : Pen :=
  (singleQuotedRuns indent split true (runs cs) (p.indicator ['\''] true false false)).indicator
    ['\''] false false false

/-- The letter after a backslash that stands for a code point. -/
def escapeLetter? (n : Nat) : Option Char :=
  match n with
  | 0x00 => some '0'
  | 0x07 => some 'a'
  | 0x08 => some 'b'
  | 0x09 => some 't'
  | 0x0A => some 'n'
  | 0x0B => some 'v'
  | 0x0C => some 'f'
  | 0x0D => some 'r'
  | 0x1B => some 'e'
  | 0x22 => some '"'
  | 0x5C => some '\\'
  | 0x85 => some 'N'
  | 0xA0 => some '_'
  | 0x2028 => some 'L'
  | 0x2029 => some 'P'
  | _ => none

/-- The hexadecimal digits of a number in capitals, zeros put in front up to a width. -/
def hex (width n : Nat) : List Char :=
  let digits := (Nat.toDigits 16 n).map Char.toUpper
  List.replicate (width - digits.length) '0' ++ digits

/-- The escape of a code point in double quotes; none if it stands for itself. -/
def escape? (c : CodePoint) : Option (List Char) :=
  let n := c.value
  match escapeLetter? n with
  | some letter => some ['\\', letter]
  | none =>
    if 0x20 ≤ n ∧ n ≤ 0x7E then none
    else if n ≤ 0xFF then some ('\\' :: 'x' :: hex 2 n)
    else if n ≤ 0xFFFF then some ('\\' :: 'u' :: hex 4 n)
    else some ('\\' :: 'U' :: hex 8 n)

/-- Breaks the line inside double quotes. A blank that would start the next line is escaped. -/
def breakQuoted (indent : Nat) (pending : List Char) (next : Text) (p : Pen) : Pen :=
  let p := (p.put (pending ++ ['\\'])).continueAt indent
  if next.head? = some (.scalar ' ') then p.put ['\\'] else p

/-- The code points of a scalar in double quotes. Characters that stand for themselves are held back
up to a blank or an escape, where the line may be broken; it never is before the second or after the
last but one. -/
def doubleQuotedFrom (indent : Nat) (split : Bool) : Bool → List Char → Text → Pen → Pen
  | _, pending, [], p => p.put pending
  | first, pending, c :: rest, p =>
    let inside := split && !first && !rest.isEmpty
    match escape? c with
    | some e =>
      let p := (p.put pending).put e
      let p := if inside && width + 1 < p.column then p.breakQuoted indent [] rest else p
      doubleQuotedFrom indent split false [] rest p
    | none =>
      let d := c.char?.getD ' '
      if inside && (d = ' ' || pending.isEmpty) && width < p.column + pending.length then
        doubleQuotedFrom indent split false [d] rest (p.breakQuoted indent pending (c :: rest))
      else doubleQuotedFrom indent split false (pending ++ [d]) rest p

def doubleQuoted (indent : Nat) (split : Bool) (t : Text) (p : Pen) : Pen :=
  (doubleQuotedFrom indent split true [] t (p.indicator ['"'] true false false)).indicator
    ['"'] false false false

/-- The lines of a literal scalar, each of which ends with a line feed. -/
def literalRuns (indent : Nat) : List (List Char) → Pen → Pen
  | [], p => p
  | run :: rest, p =>
    if run.head? = some '\n' then
      literalRuns indent rest (run.foldl (fun p _ => p.lineBreak) p)
    else literalRuns indent rest ((p.indentTo indent).put run)

/-- A literal scalar of lines that are not empty. -/
def literal (indent : Nat) (cs : List Char) (p : Pen) : Pen :=
  literalRuns indent (runs cs) (p.indicator ['|'] true false false).lineBreak

end Pen

end ManifestChain.Yaml
