import ManifestChain.Text.Utf8
import ManifestChain.Yaml.Scalar
import ManifestChain.Yaml.Token

/-!
# From characters to tokens

Blocks are told by indentation: a token further in opens a block, and one further out closes the
blocks it leaves. A mapping key shows as one only at the colon after it, so the lexer remembers
where a key may have begun, and puts the tokens that open the key and its block there when the colon
comes. A key without an indicator stays on one line and within 1024 characters.
-/

namespace ManifestChain.Yaml

/-- A place where a key may have begun: the number of its first token, and its position. -/
structure KeyPlace where
  token : Nat
  isRequired : Bool
  index : Nat
  line : Nat
  column : Nat

structure Lexer where
  cursor : Cursor
  /-- The tokens so far, the last one first, and their number. -/
  tokens : List Token
  count : Nat
  flowLevel : Int
  indent : Int
  /-- The indentation of the enclosing blocks, the innermost first. -/
  indents : List Int
  /-- Whether a key may begin here without an indicator. -/
  keyAllowed : Bool
  /-- Where a key may have begun, by flow level. -/
  keys : List (Int × KeyPlace)

namespace Lexer

def start (s : Source) : Lexer := ⟨.ofSource s, [], 0, 0, -1, [], true, []⟩

def emit (token : Token) (l : Lexer) : Lexer :=
  { l with tokens := token :: l.tokens, count := l.count + 1 }

def isBlock (l : Lexer) : Bool := l.flowLevel = 0

/-- Puts a token in front of the one with a number. -/
def emitAt (place : Nat) (token : Token) (l : Lexer) : Lexer :=
  let (after, before) := l.tokens.splitAt (l.count - place)
  { l with tokens := after ++ token :: before, count := l.count + 1 }

/-- Closes the blocks that are indented further than a column. -/
def closeBlocks (column : Int) (l : Lexer) : Lexer :=
  if l.isBlock then close l.indents l else l
where
  close : List Int → Lexer → Lexer
    | outer :: rest, l =>
      if column < l.indent then
        close rest ({ l with indent := outer, indents := rest }.emit .blockEnd)
      else l
    | [], l => l

/-- Opens a block at a column if it is indented further than the current one; the flag tells whether
it did. -/
def indentTo (column : Int) (l : Lexer) : Bool × Lexer :=
  if l.indent < column then
    (true, { l with indents := l.indent :: l.indents, indent := column })
  else (false, l)

/-- Forgets the places that the cursor has left behind; one where a key had to come is a fault. -/
def dropStaleKeys (l : Lexer) : Except Fault Lexer :=
  let isStale (k : KeyPlace) := k.line != l.cursor.line || k.index + 1024 < l.cursor.index
  if l.keys.any fun k => isStale k.2 && k.2.isRequired then .error .malformedYaml
  else .ok { l with keys := l.keys.filter fun k => !isStale k.2 }

/-- Forgets the place at the current flow level; one where a key had to come is a fault. -/
def dropKey (l : Lexer) : Except Fault Lexer :=
  match l.keys.find? fun k => k.1 = l.flowLevel with
  | some (_, k) =>
    if k.isRequired then .error .malformedYaml
    else .ok { l with keys := l.keys.filter fun k => k.1 != l.flowLevel }
  | none => .ok l

/-- Remembers the place of the next token if a key may begin there. At the indentation of the block
one has to. -/
def markKey (l : Lexer) : Except Fault Lexer :=
  if l.keyAllowed then do
    let l ← l.dropKey
    let c := l.cursor
    let required := l.isBlock && l.indent = c.column
    let place : KeyPlace := ⟨l.count, required, c.index, c.line, c.column⟩
    return { l with keys := (l.flowLevel, place) :: l.keys }
  else .ok l

/-- Reads characters from the cursor on. -/
def scan {α : Type} (read : Scan α) (l : Lexer) : Except Fault (α × Lexer) := do
  let (x, c) ← read.run l.cursor
  return (x, { l with cursor := c })

/-- Emits a token for some characters at the cursor. -/
def take (width : Nat) (token : Token) (l : Lexer) : Except Fault Lexer := do
  let (_, l) ← l.scan (Scan.skip width)
  return l.emit token

end Lexer

/-! ### Directives, anchors and tags -/

namespace Scan

/-- Skips the blanks, comments and line breaks before a token; tells whether there was a line
break. -/
def gaps : Nat → Scan Bool
  | 0 => return false
  | fuel + 1 => do
    skipBlanks
    if isBreak (← peek) then
      let _ ← lineBreak
      let _ ← gaps fuel
      return true
    else return false

/-- A decimal number of a version, which keeps the limit of decimal numerals. -/
def versionNumber : Scan Nat := do
  let digits ← span Char.isDigit
  if digits.isEmpty then malformed
  match Numeral.ofDigits? digits with
  | some n => return n
  | none => throw .badValue

/-- A tag handle: exclamation marks around a name, or one alone. -/
def tagHandle : Scan String := do
  if (← peek) != '!' then malformed
  let x ← look 1
  skip 1
  if x = ' ' then return "!"
  else
    let name ← span isNameChar
    if (← peek) != '!' then malformed
    skip 1
    return String.ofList ('!' :: name ++ ['!'])

/-- The bytes of escapes by a percent sign and two hexadecimal digits. -/
def uriEscapes : Nat → Scan (List UInt8)
  | 0 => return []
  | fuel + 1 => do
    if (← peek) = '%' then
      skip 1
      let n ← hexNumber 2
      skip 2
      return UInt8.ofNat n :: (← uriEscapes fuel)
    else return []

/-- The characters that may stand in a tag. -/
def isUriChar (c : Char) : Bool := c.isAlphanum || "-;/?:@&=+$,_.!~*'()[]".toList.contains c

/-- The characters of a tag, escapes decoded. -/
def tagUri : Nat → Scan (List Char)
  | 0 => return []
  | fuel + 1 => do
    let run ← span isUriChar
    if (← peek) = '%' then
      let bytes ← uriEscapes (← Scan.fuel)
      match (Text.ofUtf8? bytes).bind Text.chars? with
      | some decoded => return run ++ decoded ++ (← tagUri fuel)
      | none => malformed
    else return run

/-- The characters of a tag, at least one. -/
def someTagUri : Scan String := do
  let x ← peek
  if !(isUriChar x || x = '%') then malformed
  return String.ofList (← tagUri (← fuel))

/-- What a directive says after its name. -/
def directiveValue (name : String) : Scan Directive := do
  if name = "YAML" then
    skipWhile (· = ' ')
    let major ← versionNumber
    if (← peek) != '.' then malformed
    skip 1
    let _ ← versionNumber
    if !isSpaceOrBreak (← peek) then malformed
    return .version major
  else if name = "TAG" then
    skipWhile (· = ' ')
    let handle ← tagHandle
    if (← peek) != ' ' then malformed
    skipWhile (· = ' ')
    let lead ← someTagUri
    if !isSpaceOrBreak (← peek) then malformed
    return .handle handle lead
  else
    skipWhile fun x => !isBreakOrEnd x
    return .unknown

/-- A directive from its percent sign to the end of the line. -/
def directive : Scan Directive := do
  skip 1
  let name ← span isNameChar
  if name.isEmpty || !isSpaceOrBreak (← peek) then malformed
  let d ← directiveValue (String.ofList name)
  endLine
  return d

def anchorName : Scan String := do
  skip 1
  let name ← span isNameChar
  let x ← peek
  if name.isEmpty || !(isGap x || "?:,]\x7d%@`".toList.contains x) then malformed
  return String.ofList name

/-- The first exclamation mark, blank or line break after the one at the cursor. -/
def afterTagWord : Scan Char := do
  let word := (← get).rest.tail.takeWhile fun x => x != '!' && !isSpaceOrBreak x
  look (word.length + 1)

/-- A tag from its exclamation mark on: in full between angle brackets, the mark alone, or a suffix
after a handle. -/
def tagName : Scan TagName := do
  let x ← look 1
  let name ← do
    if x = '<' then
      skip 2
      let uri ← someTagUri
      if (← peek) != '>' then malformed
      skip 1
      pure (⟨none, uri⟩ : TagName)
    else if isGap x then
      skip 1
      pure ⟨none, "!"⟩
    else if (← afterTagWord) = '!' then
      let handle ← tagHandle
      pure ⟨some handle, ← someTagUri⟩
    else
      skip 1
      pure ⟨some "!", ← someTagUri⟩
  if !isSpaceOrBreak (← peek) then malformed
  return name

end Scan

namespace Lexer

/-! ### Tokens by their first character -/

/-- The end of the stream, which closes all blocks. -/
def streamEnd (l : Lexer) : Except Fault Lexer := do
  let l ← (l.closeBlocks (-1)).dropKey
  return { l with keyAllowed := false, keys := [] }.emit .streamEnd

/-- A directive or a document mark, which closes all blocks. -/
def atMargin (l : Lexer) : Except Fault Lexer := do
  let l ← (l.closeBlocks (-1)).dropKey
  return { l with keyAllowed := false }

def directive (l : Lexer) : Except Fault Lexer := do
  let (d, l) ← (← l.atMargin).scan Scan.directive
  return l.emit (.directive d)

/-- The start of a flow collection, which may be a key. -/
def openFlow (token : Token) (l : Lexer) : Except Fault Lexer := do
  let l ← l.markKey
  { l with flowLevel := l.flowLevel + 1, keyAllowed := true }.take 1 token

def closeFlow (token : Token) (l : Lexer) : Except Fault Lexer := do
  let l ← l.dropKey
  { l with flowLevel := l.flowLevel - 1, keyAllowed := false }.take 1 token

def flowEntry (l : Lexer) : Except Fault Lexer := do
  let l ← { l with keyAllowed := true }.dropKey
  l.take 1 .flowEntry

/-- Opens a block at the cursor with a token unless it is open already. -/
def openBlock (token : Token) (l : Lexer) : Lexer :=
  match l.indentTo l.cursor.column with
  | (true, l) => l.emit token
  | (false, l) => l

def blockEntry (l : Lexer) : Except Fault Lexer := do
  if l.isBlock && !l.keyAllowed then throw .malformedYaml
  let l := if l.isBlock then l.openBlock .blockSequenceStart else l
  let l ← { l with keyAllowed := true }.dropKey
  l.take 1 .blockEntry

def explicitKey (l : Lexer) : Except Fault Lexer := do
  if l.isBlock && !l.keyAllowed then throw .malformedYaml
  let l := if l.isBlock then l.openBlock .blockMappingStart else l
  let l ← { l with keyAllowed := l.isBlock }.dropKey
  l.take 1 .key

/-- The colon of a mapping: after a key without an indicator the tokens that open the key are put
where it began. -/
def mappingValue (l : Lexer) : Except Fault Lexer :=
  match l.keys.find? fun k => k.1 = l.flowLevel with
  | some (_, k) =>
    let l := { l with keys := l.keys.filter fun k => k.1 != l.flowLevel }.emitAt k.token .key
    let l :=
      if l.isBlock then
        match l.indentTo k.column with
        | (true, l) => l.emitAt k.token .blockMappingStart
        | (false, l) => l
      else l
    { l with keyAllowed := false }.take 1 .value
  | none => do
    if l.isBlock && !l.keyAllowed then throw .malformedYaml
    let l := if l.isBlock then l.openBlock .blockMappingStart else l
    let l ← { l with keyAllowed := l.isBlock }.dropKey
    l.take 1 .value

/-- A token that may be a key or a part of one, read from the cursor on. -/
def keyPart {α : Type} (read : Scan α) (token : α → Token) (l : Lexer) : Except Fault Lexer := do
  let (x, l) ← (← l.markKey).scan read
  return { l with keyAllowed := false }.emit (token x)

def blockScalar (folded : Bool) (l : Lexer) : Except Fault Lexer := do
  let l ← { l with keyAllowed := true }.dropKey
  let (content, l) ← l.scan (Scan.blockScalar folded l.indent)
  return l.emit (.scalar content false)

def plainScalar (l : Lexer) : Except Fault Lexer := do
  let l ← l.markKey
  let ((content, ended), l) ← l.scan (Scan.plainScalar (!l.isBlock) (l.indent + 1))
  return { l with keyAllowed := ended }.emit (.scalar content true)

/-- Whether a character begins a plain scalar whatever follows it. -/
def startsPlain (x : Char) : Bool :=
  !(isGap x || "-?:,[]\x7b\x7d#&*!|>'\"%@`".toList.contains x)

/-- An indicator with a gap after it, or in flow context if `inFlow`; otherwise it begins a plain
scalar. -/
def indicator (inFlow : Bool) (step : Lexer → Except Fault Lexer) (l : Lexer) :
    Except Fault Lexer := do
  if inFlow && !l.isBlock then step l
  else if isGap (← l.cursor.look 1) then step l
  else l.plainScalar

/-- A character that begins no token; it shows after a look at the next one. -/
def noToken (l : Lexer) : Except Fault Lexer := do
  let _ ← l.cursor.look 1
  throw .malformedYaml

/-- The lexer after the next token, which begins with a character that is no document mark. -/
def tokenAt (x : Char) (l : Lexer) : Except Fault Lexer :=
  match x with
  | '[' => l.openFlow .flowSequenceStart
  | '\x7b' => l.openFlow .flowMappingStart
  | ']' => l.closeFlow .flowSequenceEnd
  | '\x7d' => l.closeFlow .flowMappingEnd
  | ',' => l.flowEntry
  | '-' => l.indicator false blockEntry
  | '?' => l.indicator true explicitKey
  | ':' => l.indicator true mappingValue
  | '*' => l.keyPart Scan.anchorName .alias
  | '&' => l.keyPart Scan.anchorName .anchor
  | '!' => l.keyPart Scan.tagName .tag
  | '|' => if l.isBlock then l.blockScalar false else l.noToken
  | '>' => if l.isBlock then l.blockScalar true else l.noToken
  | '\'' => l.keyPart (Scan.quotedScalar false) (.scalar · false)
  | '"' => l.keyPart (Scan.quotedScalar true) (.scalar · false)
  | x => if startsPlain x then l.plainScalar else l.noToken

/-- The lexer after the next token, the cursor standing at it. -/
def token (l : Lexer) : Except Fault Lexer := do
  let c := l.cursor
  let x ← c.look 0
  if x = endMark then l.streamEnd
  else if x = '%' && c.column = 0 then l.directive
  else if (x = '-' || x = '.') && c.column = 0 then
    if ← c.atSeparator then
      (← l.atMargin).take 3 (if x = '-' then .documentStart else .documentEnd)
    else l.tokenAt x
  else l.tokenAt x

/-- The lexer after the blanks before the next token and that token. -/
def advance (l : Lexer) : Except Fault Lexer := do
  let (broke, l) ← l.scan (do Scan.gaps (← Scan.fuel))
  let l ← { l with keyAllowed := l.keyAllowed || (broke && l.isBlock) }.dropStaleKeys
  (l.closeBlocks l.cursor.column).token

/-- The tokens up to a fault, in order. Where a key may have begun the tokens are held back until it
is settled, so the fault comes before them. -/
def brokenBy (f : Fault) (l : Lexer) : List Token :=
  let settled := l.keys.foldl (fun least k => min least k.2.token) l.count
  (Token.broken f :: l.tokens.drop (l.count - settled)).reverse

/-- The tokens of the rest of a stream in order. Where it cannot be read, the fault is the last. -/
def run : Nat → Lexer → List Token
  | 0, l => l.tokens.reverse
  | fuel + 1, l =>
    match l.dropStaleKeys with
    | .error f => l.brokenBy f
    | .ok l =>
      match l.advance with
      | .error f => l.brokenBy f
      | .ok l => match l.tokens with
        | .streamEnd :: _ => l.tokens.reverse
        | _ => run fuel l

end Lexer

/-- The tokens of a stream; a byte order mark at its start is left out. -/
def Token.ofSource (s : Source) : List Token :=
  let l := Lexer.start s
  let l := if s.chars.head? = some '\uFEFF' then { l with cursor := l.cursor.next } else l
  l.run (s.chars.length + 2)

end ManifestChain.Yaml
