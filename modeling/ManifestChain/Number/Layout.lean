import ManifestChain.Number.Decimal

/-!
# The text of a number

A floating point number is written with its shortest digits, with a point and at least one digit on
each side of it where no power of ten is written, and with a power of ten from `10^16` on and below
`10^-4`. A `Layout` holds what differs between the places where numbers are written.
-/

namespace ManifestChain

/-- How numbers are written: whether a single digit carries a fraction of zero before a power of
ten, and the texts of the numbers without digits. -/
structure Layout where
  zeroFraction : Bool
  infinity : Text
  nan : Text

namespace Layout

/-- A power of ten, with its sign and at least two digits. -/
def power (e : Int) : Text :=
  (if e < 0 then "e-" else "e+") ++ Text.ofNatPadded 2 e.natAbs

def scientific (layout : Layout) (digits : List Char) (leading : Int) : Text :=
  let fraction := match digits.drop 1 with
    | [] => if layout.zeroFraction then ['.', '0'] else []
    | rest => '.' :: rest
  Text.ofChars (digits.take 1 ++ fraction) ++ power leading

def positional (digits : List Char) (leading : Int) : Text :=
  if leading < 0 then
    Text.ofChars (['0', '.'] ++ List.replicate (leading.natAbs - 1) '0' ++ digits)
  else
    let whole := leading.toNat + 1
    let fraction := digits.drop whole
    Text.ofChars (digits.take whole ++ List.replicate (whole - digits.length) '0' ++ ['.'] ++
      (if fraction.isEmpty then ['0'] else fraction))

/-- A fraction by the size of its first digit. -/
def decimal (layout : Layout) (d : Decimal) : Text :=
  if -4 ≤ d.leading ∧ d.leading < 16 then positional d.digits d.leading
  else layout.scientific d.digits d.leading

def number (layout : Layout) : Binary64 → Text
  | .finite negative m => (if negative then "-" else "") ++ layout.decimal m.shortest
  | .infinite negative => (if negative then "-" else "") ++ layout.infinity
  | .nan => layout.nan

end Layout

end ManifestChain
