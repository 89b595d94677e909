import ManifestChain.Number.Binary64
import ManifestChain.Text.Basic

/-!
# Decimal fractions and the shortest digits of a number

A decimal fraction is a coefficient times a power of ten, without trailing zeros in the coefficient.
`Binary64.ofDecimal` reads one, rounding once. `Magnitude.shortest` finds the fewest digits that
read back as the magnitude, and of those the nearest to it.
-/

namespace ManifestChain

/-- A decimal fraction, `coefficient * 10^exponent`. -/
structure Decimal where
  coefficient : Nat
  exponent : Int
deriving DecidableEq, Repr

namespace Decimal

/-- Moves trailing zeros of the coefficient to the exponent, at most `fuel` of them. -/
def stripZeros : Nat → Nat → Int → Decimal
  | 0, c, e => ⟨c, e⟩
  | fuel + 1, c, e => if c % 10 = 0 then stripZeros fuel (c / 10) (e + 1) else ⟨c, e⟩

/-- The one form of `c * 10^e`: no trailing zeros, and exponent zero for zero. -/
def of (c : Nat) (e : Int) : Decimal := if c = 0 then ⟨0, 0⟩ else stripZeros c c e

def digits (d : Decimal) : List Char := Nat.toDigits 10 d.coefficient

/-- The power of ten of the first digit. -/
def leading (d : Decimal) : Int := d.exponent + d.digits.length - 1

/-- The fraction of a numeral: digits before and after the point, and a power of ten. -/
def ofDigits (whole fraction : List Char) (power : Int) : Decimal :=
  of (Nat.ofDigitChars 10 (whole ++ fraction) 0) (power - fraction.length)

end Decimal

/-- The number nearest to a decimal fraction with a sign. Beyond `10^310` it is infinite and below
`10^-330` zero, so that no larger power of ten has to be computed. -/
def Binary64.ofDecimal (negative : Bool) (d : Decimal) : Binary64 :=
  if d.coefficient = 0 ∨ d.leading < -330 then .finite negative .zero
  else if 310 < d.leading then .infinite negative
  else if 0 ≤ d.exponent then .ofRatio negative (d.coefficient * Nat.pow 10 d.exponent.toNat) 1
  else .ofRatio negative d.coefficient (Nat.pow 10 (-d.exponent).toNat)

namespace Magnitude

/-- The power of ten of the first digit of a magnitude other than zero. -/
def leading (m : Magnitude) : Int :=
  ((Nat.toDigits 10 (m.units * Nat.pow 10 400 / Nat.pow 2 scale)).length : Int) - 401

/-- The two fractions on the grid of `10^p` that enclose the magnitude, the nearer one first; of
two as near, the one with an even last digit. -/
def neighbours (m : Magnitude) (p : Int) : List Decimal :=
  let num := if 0 ≤ p then m.units else m.units * Nat.pow 10 (-p).toNat
  let den := if 0 ≤ p then Nat.pow 2 scale * Nat.pow 10 p.toNat else Nat.pow 2 scale
  let low := num / den
  let twice := 2 * (num % den)
  let lowFirst := twice < den || (twice == den && low % 2 == 0)
  if lowFirst then [.of low p, .of (low + 1) p] else [.of (low + 1) p, .of low p]

def readsBack (m : Magnitude) (d : Decimal) : Bool :=
  Binary64.ofDecimal false d = .finite false m

def exact (m : Magnitude) : Decimal := .of (m.units * Nat.pow 5 scale) (-scale)

/-- The fewest digits, at most seventeen, that read back as the magnitude, and of those the nearest
to it. Seventeen digits are always enough; the exact fraction closes the search. -/
def shortest (m : Magnitude) : Decimal :=
  if m.significand = 0 then ⟨0, 0⟩
  else
    let top := m.leading
    let candidates := (List.range 17).flatMap fun (k : Nat) => m.neighbours (top - k)
    (candidates.find? m.readsBack).getD m.exact

end Magnitude

end ManifestChain
