import ManifestChain.Text.Basic

/-!
# UTF-8

The encoding of a text in bytes, and two decoders. The strict decoder takes well-formed UTF-8 only;
the lenient one also takes a surrogate written in three bytes, as a text that is passed on unread
may hold one. A text with a lone surrogate has no encoding.
-/

namespace ManifestChain

namespace CodePoint

/-- The bytes of a number below `0x110000` in the shortest of the four forms. -/
def utf8Bytes (n : Nat) : List UInt8 :=
  if n < 0x80 then [UInt8.ofNat n]
  else if n < 0x800 then [UInt8.ofNat (0xC0 + n / 0x40), UInt8.ofNat (0x80 + n % 0x40)]
  else if n < 0x10000 then
    [UInt8.ofNat (0xE0 + n / 0x1000), UInt8.ofNat (0x80 + n / 0x40 % 0x40),
      UInt8.ofNat (0x80 + n % 0x40)]
  else
    [UInt8.ofNat (0xF0 + n / 0x40000), UInt8.ofNat (0x80 + n / 0x1000 % 0x40),
      UInt8.ofNat (0x80 + n / 0x40 % 0x40), UInt8.ofNat (0x80 + n % 0x40)]

end CodePoint

namespace Text

/-- The encoding of a text; none if a surrogate stands alone in it. -/
def utf8? (t : Text) : Option (List UInt8) :=
  t.chars?.map fun cs => cs.flatMap fun c => CodePoint.utf8Bytes c.toNat

/-- The payload bits of a continuation byte. -/
def continuation? (b : UInt8) : Option Nat :=
  if 0x80 ≤ b ∧ b < 0xC0 then some (b.toNat - 0x80) else none

/-- The code point at the head of a byte sequence, and the number of bytes it takes. Overlong forms
and numbers from `0x110000` on are refused, surrogates only if `lenient` is false. -/
def decodeHead? (lenient : Bool) : List UInt8 → Option (CodePoint × Nat)
  | [] => none
  | b :: rest =>
    if b < 0x80 then (CodePoint.ofNat? b.toNat).map (·, 1)
    else if b < 0xC2 then none
    else if b < 0xE0 then
      match rest with
      | b₁ :: _ => do
        let x ← continuation? b₁
        let c ← CodePoint.ofNat? ((b.toNat - 0xC0) * 0x40 + x)
        return (c, 2)
      | _ => none
    else if b < 0xF0 then
      match rest with
      | b₁ :: b₂ :: _ => do
        let x ← continuation? b₁
        let y ← continuation? b₂
        let n := (b.toNat - 0xE0) * 0x1000 + x * 0x40 + y
        let c ← CodePoint.ofNat? n
        if n < 0x800 ∨ (c.isSurrogate ∧ ¬ lenient) then none else return (c, 3)
      | _ => none
    else if b < 0xF5 then
      match rest with
      | b₁ :: b₂ :: b₃ :: _ => do
        let x ← continuation? b₁
        let y ← continuation? b₂
        let z ← continuation? b₃
        let n := (b.toNat - 0xF0) * 0x40000 + x * 0x1000 + y * 0x40 + z
        let c ← CodePoint.ofNat? n
        if n < 0x10000 then none else return (c, 4)
      | _ => none
    else none

/-- Decodes with at most `fuel` code points; the length of the input is enough. -/
def decodeUpTo (lenient : Bool) : Nat → List UInt8 → Option Text
  | _, [] => some []
  | 0, _ :: _ => none
  | fuel + 1, b :: rest => do
    let (c, width) ← decodeHead? lenient (b :: rest)
    let t ← decodeUpTo lenient fuel ((b :: rest).drop width)
    return c :: t

def ofUtf8? (bytes : List UInt8) : Option Text := decodeUpTo false bytes.length bytes

/-- The text of UTF-8 in which surrogates may be written out. -/
def ofUtf8Lenient? (bytes : List UInt8) : Option Text := decodeUpTo true bytes.length bytes

end Text

end ManifestChain
