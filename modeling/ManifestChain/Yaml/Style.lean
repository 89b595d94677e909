import ManifestChain.Yaml.Cursor

/-!
# How a scalar may be written

A scalar is written plain where it would be read back as it is, else in single quotes, and in
double quotes if it holds what needs an escape. Only the characters from the blank to the tilde and
the line feed are written without one.
-/

namespace ManifestChain.Yaml

inductive Style where
  | plain
  | singleQuoted
  | doubleQuoted
  | literal
deriving DecidableEq, Repr

structure Shape where
  isEmpty : Bool
  isMultiline : Bool
  allowsPlain : Bool
  allowsSingleQuoted : Bool
  allowsLiteral : Bool

namespace Shape

/-- The code points that count as a gap after or before an indicator. -/
def isGapPoint (c : CodePoint) : Bool :=
  match c with
  | .scalar d => isGap d
  | .surrogate _ => false

def isBreakPoint (c : CodePoint) : Bool :=
  c = .scalar '\n' || c = .scalar '\x85' || c = .scalar '\u2028' || c = .scalar '\u2029'

def isSpecial (c : CodePoint) : Bool :=
  !(c = .scalar '\n' || (0x20 ≤ c.value && c.value ≤ 0x7E))

def endsOrGap : Text → Bool
  | [] => true
  | c :: _ => isGapPoint c

/-- Whether the first character would be read as an indicator. -/
def leadingIndicator : Text → Bool
  | [] => false
  | c :: rest =>
    match c with
    | .scalar d =>
      "#,[]\x7b\x7d&*!|>'\"%@`".toList.contains d ||
        ((d = '?' || d = ':' || d = '-') && endsOrGap rest)
    | .surrogate _ => false

/-- Whether a later character would be read as an indicator: a colon before a gap, or a number sign
after one. The flag tells whether there is a gap right before. -/
def innerIndicator : Bool → Text → Bool
  | _, [] => false
  | gapBefore, c :: rest =>
    (c = .scalar ':' && endsOrGap rest) || (c = .scalar '#' && gapBefore) ||
      innerIndicator (isGapPoint c) rest

/-- Whether two code points with the given properties stand next to each other. -/
def hasPair (p q : CodePoint → Bool) : Text → Bool
  | a :: b :: rest => (p a && q b) || hasPair p q (b :: rest)
  | _ => false

def ofText (t : Text) : Shape :=
  match t with
  | [] => ⟨true, false, true, true, false⟩
  | first :: rest =>
    let isBlank (c : CodePoint) : Bool := c = .scalar ' '
    let last := rest.getLastD first
    let edge (c : CodePoint) : Bool := isBlank c || isBreakPoint c
    let multiline := t.any isBreakPoint
    let breakSpace := hasPair isBreakPoint isBlank t
    let escapes := t.any isSpecial || hasPair isBlank isBreakPoint t
    let indicators := t.startsWith "---" || t.startsWith "..." || leadingIndicator t ||
      innerIndicator (isGapPoint first) rest
    ⟨false, multiline,
      !(edge first || edge last || breakSpace || escapes || multiline || indicators),
      !(breakSpace || escapes), !(isBlank last || escapes)⟩

/-- The style of a text. It can be plain if its tag would be found by its form; a key that is
written in one line may not have line breaks. -/
def style (s : Shape) (isLiteral isFoundPlain isKey : Bool) : Style :=
  if isLiteral then (if !isKey && s.allowsLiteral then .literal else .doubleQuoted)
  else if isFoundPlain && !(isKey && (s.isEmpty || s.isMultiline)) && s.allowsPlain then .plain
  else if s.allowsSingleQuoted && !(isKey && s.isMultiline) then .singleQuoted
  else .doubleQuoted

end Shape

end ManifestChain.Yaml
