import ManifestChain.Yaml.Pen
import ManifestChain.Yaml.Style
import ManifestChain.Yaml.Tree.Basic

/-!
# Writing documents

Collections are written as blocks, indented by two; empty ones between brackets. A sequence in a
mapping is not indented further than its key. A key that is short and fits in one line has only a
colon after it, any other one a question mark in front. The documents of a stream after the first
begin with a mark, and a stream that could go on is closed by one.
-/

namespace ManifestChain.Yaml

inductive Place where
  | root
  | item
  /-- A value of a mapping, or a key with a question mark. -/
  | value
  /-- A key with only a colon after it. -/
  | key
deriving DecidableEq, Repr

namespace Tree

/-- The column of the content of a block. -/
def deeper : Option Nat → Nat
  | none => 0
  | some n => n + 2

/-- The column of the further lines of a scalar. -/
def scalarIndent : Option Nat → Nat
  | none => 2
  | some n => n + 2

def anchorName (n : Nat) : List Char := ("id" ++ Text.ofNatPadded 3 n : Text).scalars

/-- The name of the anchor of a mark, if it has one. -/
def anchorOf (anchors : List Nat) : Mark → Option (List Char)
  | none => none
  | some n => (anchors.idxOf? n).map fun i => anchorName (i + 1)

/-- Writes the anchor of a mark that has one. -/
def printAnchor (anchors : List Nat) (mark : Mark) (p : Pen) : Pen :=
  match anchorOf anchors mark with
  | some name => p.indicator ('&' :: name) true false false
  | none => p

/-- Writes a tag that would not be found otherwise. -/
def printTag (tag : Tag) (p : Pen) : Pen := p.indicator tag.shorthand.scalars true false false

/-- Whether a key is written with only a colon after it. -/
def isSimpleKey (anchors : List Nat) : Tree → Bool
  | scalar mark tag content _ =>
    let anchorLength := ((anchorOf anchors mark).map List.length).getD 0
    let shape := Shape.ofText content
    anchorLength + tag.shorthand.length + content.length < 128 && !shape.isEmpty &&
      !shape.isMultiline
  | sequence _ items => items.isEmpty
  | mapping _ _ entries => entries.isEmpty
  | again _ => true

def printScalar (place : Place) (indent : Option Nat) (tag : Tag) (content : Text)
    (isLiteral : Bool) (p : Pen) : Pen :=
  let isKey := place = .key
  let isFoundPlain := Tag.ofPlain content = tag
  let style := (Shape.ofText content).style isLiteral isFoundPlain isKey
  let isFound := if style = .plain then isFoundPlain else tag = .text
  let p := if isFound then p else printTag tag p
  let column := scalarIndent indent
  match style with
  | .plain =>
    { p with isOpen := p.isOpen || place = Place.root }.plain column (!isKey) content.scalars
  | .singleQuoted => p.singleQuoted column (!isKey) content.scalars
  | .doubleQuoted => p.doubleQuoted column (!isKey) content
  | .literal => p.literal column content.scalars

mutual

/-- Writes a node in a block with the given column. -/
def print (anchors : List Nat) (place : Place) (indent : Option Nat) : Tree → Pen → Pen
  | scalar mark tag content isLiteral, p =>
    printScalar place indent tag content isLiteral (printAnchor anchors mark p)
  | sequence mark items, p =>
    let p := printAnchor anchors mark p
    if items.isEmpty then (p.indicator ['['] true true false).indicator [']'] false false false
    else
      let isFlush := (place = .value || place = .key) && !p.isIndented
      printItems anchors (if isFlush then indent.getD 0 else deeper indent) items p
  | mapping mark tag entries, p =>
    let p := printAnchor anchors mark p
    let p := if tag = .map then p else printTag tag p
    if entries.isEmpty then
      (p.indicator ['\x7b'] true true false).indicator ['\x7d'] false false false
    else printEntries anchors (deeper indent) entries p
  | again n, p => p.indicator ('*' :: (anchorOf anchors (some n)).getD []) true false false

def printItems (anchors : List Nat) (column : Nat) : List Tree → Pen → Pen
  | [], p => p
  | t :: ts, p =>
    let p := (p.indentTo column).indicator ['-'] true false true
    printItems anchors column ts (print anchors .item (some column) t p)

def printEntries (anchors : List Nat) (column : Nat) : List (Tree × Tree) → Pen → Pen
  | [], p => p
  | (k, v) :: es, p =>
    let p := p.indentTo column
    let p :=
      if isSimpleKey anchors k then
        (print anchors .key (some column) k p).indicator [':'] false false false
      else
        let p := p.indicator ['?'] true false true
        ((print anchors .value (some column) k p).indentTo column).indicator [':'] true false true
    printEntries anchors column es (print anchors .value (some column) v p)

end

/-- Writes a document after others, the first one without a mark. -/
def printDocument (first : Bool) (t : Tree) (p : Pen) : Pen :=
  let p := if first then p else (p.indentTo 0).indicator ['-', '-', '-'] true false false
  (t.print t.anchored .root none p).indentTo 0

def close (p : Pen) : Pen :=
  if p.isOpen then (p.indicator ['.', '.', '.'] true false false).indentTo 0 else p

end Tree

/-- Writes values as documents up to the first that has no form, whose fault is returned. -/
def writeFrom : Bool → List Value → Pen → Pen × Option Fault
  | _, [], p => (Tree.close p, none)
  | first, v :: vs, p =>
    match Tree.ofValue v with
    | .error f => (p, some f)
    | .ok t => writeFrom false vs (t.printDocument first p)

/-- The stream of values, or what was written before a fault, and the fault. -/
def write (values : List Value) : List Char × Option Fault :=
  let (p, fault) := writeFrom true values .start
  (p.out.reverse, fault)

end ManifestChain.Yaml
