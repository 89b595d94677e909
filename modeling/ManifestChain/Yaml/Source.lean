import ManifestChain.Fault
import ManifestChain.Text.Utf8

/-!
# What can be read of a file

A YAML file holds text in UTF-8 with line breaks of any kind, and only printable characters may
stand in it. It is read no further than it is needed: bytes are decoded in chunks, and characters
are taken from them in portions. A chunk that is ill-formed and a portion with a character that is
not printable cannot be read, and that is a fault once something in them is needed.
-/

namespace ManifestChain.Yaml

/-- The characters of a stream as far as they can be read, and the fault that stands after them if
the stream does not end there. -/
structure Source where
  chars : List Char
  barrier : Option Fault

namespace Source

/-- The characters that may stand in a stream. -/
def isPrintable (c : Char) : Bool :=
  let n := c.toNat
  n = 9 || n = 0xA || n = 0xD || (0x20 ≤ n && n ≤ 0x7E) || n = 0x85 || (0xA0 ≤ n && n ≤ 0xD7FF) ||
    (0xE000 ≤ n && n ≤ 0xFFFD) || 0x10000 ≤ n

/-- Line breaks of two characters and of the older kind, made one. -/
def normalBreaks : List Char → List Char
  | '\r' :: '\n' :: rest => '\n' :: normalBreaks rest
  | '\r' :: rest => '\n' :: normalBreaks rest
  | c :: rest => c :: normalBreaks rest
  | [] => []

def chunkSize : Nat := 8192

/-- The number of characters in a portion; the first one is of two. -/
def portionSize : Nat := 4096

/-- Whether some bytes are the beginning of a character that goes on after them. -/
def isBeginning (bytes : List UInt8) : Bool :=
  [0x80, 0xBF].any fun b =>
    match Text.decodeHead? false (bytes ++ List.replicate 3 b) with
    | some (_, width) => bytes.length < width
    | none => false

/-- The code points of bytes whose last character may be incomplete. -/
def decodeBegun? : Nat → List UInt8 → Option Text
  | _, [] => some []
  | 0, _ :: _ => none
  | fuel + 1, b :: rest =>
    match Text.decodeHead? false (b :: rest) with
    | some (c, width) => (decodeBegun? fuel ((b :: rest).drop width)).map (c :: ·)
    | none => if isBeginning (b :: rest) then some [] else none

/-- The characters that some chunks at the beginning of a file give, if they are well-formed. A
carriage return at their end is held back, for it may be half of a line break. -/
def delivered? (bytes : List UInt8) : Option (List Char) := do
  let cs ← (← decodeBegun? bytes.length bytes).chars?
  return normalBreaks (if cs.getLast? = some '\r' then cs.dropLast else cs)

/-- The size of the next chunk: what the rest of the portion takes if its characters have as many
bytes as those of the chunk before, `size` bytes in `count` characters, but no less than the least
size. -/
def nextSize (total size count : Nat) : Nat :=
  let missing := portionSize - total % portionSize
  max chunkSize (if count = 0 then 0 else size * missing / count)

/-- The characters before the first chunk of an ill-formed file that cannot be decoded: those of the
chunks up to `start`, and of the chunks after it, of which the first has a size. -/
def decodable (bytes : List UInt8) : Nat → Nat → Nat → List Char → List Char
  | 0, _, _, sofar => sofar
  | fuel + 1, start, size, sofar =>
    match delivered? (bytes.take (start + size)) with
    | none => sofar
    | some cs =>
      if bytes.length ≤ start + size then cs
      else
        let next := nextSize cs.length size (cs.length - sofar.length)
        decodable bytes fuel (start + size) next cs

/-- Takes characters in portions up to one that cannot be read. Nothing can be decoded after them if
there is a fault. -/
def portions (fault : Option Fault) : Nat → Nat → List Char → Source
  | 0, _, cs => ⟨cs, fault⟩
  | fuel + 1, size, cs =>
    let portion := cs.take size
    if fault.isSome && portion.length < size then ⟨[], fault⟩
    else if !portion.all isPrintable then ⟨[], some .malformedYaml⟩
    else if portion.length < size then ⟨portion, none⟩
    else
      let rest := portions fault fuel portionSize (cs.drop size)
      ⟨portion ++ rest.chars, rest.barrier⟩

/-- What can be read of a file. -/
def ofBytes (bytes : List UInt8) : Source :=
  match (Text.ofUtf8? bytes).bind Text.chars? with
  | some cs =>
    let cs := normalBreaks cs
    portions none (cs.length + 1) (2 * portionSize) cs
  | none =>
    let cs := decodable bytes (bytes.length + 1) 0 chunkSize []
    portions (some .undecodable) (cs.length + 1) (2 * portionSize) cs

end Source

end ManifestChain.Yaml
