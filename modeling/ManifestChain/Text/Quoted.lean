import ManifestChain.Text.Printable

/-!
# Quoted texts and bytes

How a text or a byte sequence is shown inside a message: between quotes, with a backslash before
what the quotes would not carry. Single quotes are used unless the content holds one and no double
quote.
-/

namespace ManifestChain

namespace Quoted

/-- The quote around a content that holds single quotes or double quotes or both. -/
def quoteFor (hasSingle hasDouble : Bool) : Char :=
  if hasSingle && !hasDouble then '"' else '\''

/-- A control or a byte by number: a short escape if it has one, else two hexadecimal digits. -/
def escapeNumber (n : Nat) : Text :=
  if n = 9 then "\\t"
  else if n = 10 then "\\n"
  else if n = 13 then "\\r"
  else "\\x" ++ Text.ofNatHex 2 n

def escape (quote : Char) (c : CodePoint) : Text :=
  let n := c.value
  if c = .scalar quote ∨ c = .scalar '\\' then [.scalar '\\', c]
  else if c.isPrintable then [c]
  else if n < 0x100 then escapeNumber n
  else if n < 0x10000 then "\\u" ++ Text.ofNatHex 4 n
  else "\\U" ++ Text.ofNatHex 8 n

def escapeByte (quote : Char) (b : UInt8) : Text :=
  let n := b.toNat
  if n = quote.toNat ∨ n = '\\'.toNat then [.scalar '\\', .scalar (Char.ofNat n)]
  else if 0x20 ≤ n ∧ n < 0x7F then [.scalar (Char.ofNat n)]
  else escapeNumber n

def text (t : Text) : Text :=
  let quote := quoteFor (t.contains (.scalar '\'')) (t.contains (.scalar '"'))
  [.scalar quote] ++ t.flatMap (escape quote) ++ [.scalar quote]

/-- Bytes between quotes, after the letter that tells them from a text. -/
def bytes (bs : List UInt8) : Text :=
  let quote := quoteFor (bs.contains 0x27) (bs.contains 0x22)
  [.scalar 'b', .scalar quote] ++ bs.flatMap (escapeByte quote) ++ [.scalar quote]

end Quoted

end ManifestChain
