import ManifestChain.Text.Utf8

/-!
# Encodings told from the bytes

A document in bytes may be in UTF-8, UTF-16 or UTF-32, with or without a byte order mark. Without a
mark, the places of the zero bytes among the first four tell which it is, since a document starts
with an ASCII character. The decoders are lenient: a surrogate that stands alone is kept.
-/

namespace ManifestChain

inductive ByteOrder where
  | big
  | little
deriving DecidableEq, Repr

inductive Encoding where
  | utf8
  | utf16 (order : ByteOrder)
  | utf32 (order : ByteOrder)
deriving DecidableEq, Repr

namespace Encoding

/-- The byte order marks, the longer ones first: that of UTF-16 starts one of UTF-32. -/
def marks : List (List UInt8 × Encoding) :=
  [([0x00, 0x00, 0xFE, 0xFF], utf32 .big),
    ([0xFF, 0xFE, 0x00, 0x00], utf32 .little),
    ([0xFE, 0xFF], utf16 .big),
    ([0xFF, 0xFE], utf16 .little),
    ([0xEF, 0xBB, 0xBF], utf8)]

/-- The encoding of a document without a mark. -/
def unmarked : List UInt8 → Encoding
  | a :: b :: c :: d :: _ =>
    if a = 0 then if b = 0 then utf32 .big else utf16 .big
    else if b = 0 then if c = 0 ∧ d = 0 then utf32 .little else utf16 .little
    else utf8
  | [a, b] => if a = 0 then utf16 .big else if b = 0 then utf16 .little else utf8
  | _ => utf8

/-- The encoding of a document, and how many bytes its mark takes. -/
def detect (bytes : List UInt8) : Encoding × Nat :=
  match marks.find? fun m => m.1.isPrefixOf bytes with
  | some (mark, encoding) => (encoding, mark.length)
  | none => (unmarked bytes, 0)

def unit16 (order : ByteOrder) (a b : UInt8) : Nat :=
  match order with
  | .big => a.toNat * 0x100 + b.toNat
  | .little => b.toNat * 0x100 + a.toNat

/-- The 16-bit units; none for an odd number of bytes. -/
def units16? (order : ByteOrder) : List UInt8 → Option (List Nat)
  | [] => some []
  | [_] => none
  | a :: b :: rest => (units16? order rest).map (unit16 order a b :: ·)

/-- Joins each high surrogate with a low one right after it. -/
def joinUnits : List Nat → Option Text
  | [] => some []
  | [u] => do return [← CodePoint.ofNat? u]
  | u :: v :: rest => do
    if 0xD800 ≤ u ∧ u < 0xDC00 ∧ 0xDC00 ≤ v ∧ v < 0xE000 then
      let c ← CodePoint.ofNat? (0x10000 + (u - 0xD800) * 0x400 + (v - 0xDC00))
      return c :: (← joinUnits rest)
    else
      return (← CodePoint.ofNat? u) :: (← joinUnits (v :: rest))

/-- The code points of four bytes each; none for a rest of fewer bytes or a number too large. -/
def units32? (order : ByteOrder) : List UInt8 → Option Text
  | [] => some []
  | a :: b :: c :: d :: rest => do
    let n := match order with
      | .big => unit16 .big a b * 0x10000 + unit16 .big c d
      | .little => unit16 .little c d * 0x10000 + unit16 .little a b
    return (← CodePoint.ofNat? n) :: (← units32? order rest)
  | _ => none

/-- The text of bytes without a mark. -/
def decode? : Encoding → List UInt8 → Option Text
  | utf8, bytes => Text.ofUtf8Lenient? bytes
  | utf16 order, bytes => (units16? order bytes).bind joinUnits
  | utf32 order, bytes => units32? order bytes

end Encoding

namespace Text

/-- The text of a document in an encoding told from its first bytes. -/
def ofBytes? (bytes : List UInt8) : Option Text :=
  let (encoding, mark) := Encoding.detect bytes
  encoding.decode? (bytes.drop mark)

end Text

end ManifestChain
