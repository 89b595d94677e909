import ManifestChain.Text.Basic

/-!
# Bytes in base 64

The reader passes over characters outside the alphabet and stops at the padding that completes a
group of four. The writer fills lines of 76 characters.
-/

namespace ManifestChain

namespace Base64

/-- The six bits that a character of the alphabet stands for. -/
def sixBits? (c : Char) : Option Nat :=
  let n := c.toNat
  if 0x41 ≤ n ∧ n ≤ 0x5A then some (n - 0x41)
  else if 0x61 ≤ n ∧ n ≤ 0x7A then some (n - 0x61 + 26)
  else if 0x30 ≤ n ∧ n ≤ 0x39 then some (n - 0x30 + 52)
  else if c = '+' then some 62
  else if c = '/' then some 63
  else none

/-- Reads on with some characters of a group taken, some bits left over from them, and some padding
right before. An incomplete group without enough padding has no bytes. -/
def decodeFrom : Nat → Nat → Nat → List Char → Option (List UInt8)
  | taken, _, _, [] => if taken = 0 then some [] else none
  | taken, left, pads, c :: rest =>
    if c = '=' then
      if 2 ≤ taken then
        (if 4 ≤ taken + pads + 1 then some [] else decodeFrom taken left (pads + 1) rest)
      else decodeFrom taken left pads rest
    else match sixBits? c with
      | none => decodeFrom taken left pads rest
      | some v =>
        match taken with
        | 0 => decodeFrom 1 v 0 rest
        | 1 => (decodeFrom 2 (v % 16) 0 rest).map (UInt8.ofNat (left * 4 + v / 16) :: ·)
        | 2 => (decodeFrom 3 (v % 4) 0 rest).map (UInt8.ofNat (left * 16 + v / 4) :: ·)
        | _ => (decodeFrom 0 0 0 rest).map (UInt8.ofNat (left * 64 + v) :: ·)

/-- The bytes of a text. -/
def decode? (cs : List Char) : Option (List UInt8) := decodeFrom 0 0 0 cs

def char (n : Nat) : Char :=
  if n < 26 then Char.ofNat (0x41 + n)
  else if n < 52 then Char.ofNat (0x61 + (n - 26))
  else if n < 62 then Char.ofNat (0x30 + (n - 52))
  else if n = 62 then '+'
  else '/'

/-- The characters of some bytes, padded to groups of four. -/
def encode : List UInt8 → List Char
  | a :: b :: c :: rest =>
    let n := a.toNat * 0x10000 + b.toNat * 0x100 + c.toNat
    char (n / 0x40000) :: char (n / 0x1000 % 64) :: char (n / 64 % 64) :: char (n % 64) ::
      encode rest
  | [a, b] =>
    let n := a.toNat * 0x100 + b.toNat
    [char (n / 0x400), char (n / 16 % 64), char (n % 16 * 4), '=']
  | [a] => [char (a.toNat / 4), char (a.toNat % 4 * 16), '=', '=']
  | [] => []

/-- Characters in lines of 76, each ended by a line break, in at most `fuel` lines. -/
def lines : Nat → List Char → List Char
  | 0, _ => []
  | _, [] => []
  | fuel + 1, cs => cs.take 76 ++ '\n' :: lines fuel (cs.drop 76)

def encodeLines (bytes : List UInt8) : List Char :=
  let cs := encode bytes
  lines cs.length cs

end Base64

end ManifestChain
