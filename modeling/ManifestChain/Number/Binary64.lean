/-!
# Binary floating point numbers of 64 bits

A number is a sign and a magnitude, an infinity, or not a number. A magnitude is a significand of
at most 53 bits times a power of two, in units of `2^-1074`, the smallest magnitude there is. Its
form is canonical, so equal magnitudes are equal values of the type. All arithmetic is exact and
rounds once, to nearest, a half to the even neighbour.
-/

namespace ManifestChain

/-- The quotient rounded to nearest, a half to the even neighbour. -/
def roundDiv (n d : Nat) : Nat :=
  let q := n / d
  let r := n % d
  if 2 * r < d then q
  else if d < 2 * r then q + 1
  else if q % 2 = 0 then q else q + 1

/-- Magnitudes are counted in units of `2^-scale`. -/
def scale : Nat := 1074

/-- A finite magnitude, `significand * 2^exponent` units of `2^-scale`. -/
structure Magnitude where
  significand : Nat
  exponent : Nat
  significand_lt : significand < Nat.pow 2 53
  normal : exponent = 0 ∨ Nat.pow 2 52 ≤ significand
  exponent_le : exponent ≤ 2045
deriving DecidableEq, Repr

namespace Magnitude

def zero : Magnitude := ⟨0, 0, by decide, .inl rfl, by decide⟩

/-- The magnitude in units of `2^-scale`. -/
def units (m : Magnitude) : Nat := m.significand * Nat.pow 2 m.exponent

/-- The magnitude nearest to `n / d` units; none if that lies beyond the largest. -/
def round? (n d : Nat) : Option Magnitude :=
  let shift := Nat.log2 (n / d) + 1 - 53
  let rounded := roundDiv n (d * Nat.pow 2 shift)
  let (s, e) := if rounded = Nat.pow 2 53 then (Nat.pow 2 52, shift + 1) else (rounded, shift)
  if h : s < Nat.pow 2 53 ∧ (e = 0 ∨ Nat.pow 2 52 ≤ s) ∧ e ≤ 2045 then
    some ⟨s, e, h.1, h.2.1, h.2.2⟩
  else none

end Magnitude

/-- A floating point number of 64 bits; there is one value that is not a number. -/
inductive Binary64 where
  | finite (negative : Bool) (magnitude : Magnitude)
  | infinite (negative : Bool)
  | nan
deriving DecidableEq, Repr

namespace Binary64

def zero : Binary64 := finite false .zero

/-- The number nearest to a quotient with a sign. -/
def ofRatio (negative : Bool) (num den : Nat) : Binary64 :=
  (Magnitude.round? (num * Nat.pow 2 scale) den).elim (infinite negative) (finite negative)

def isFinite : Binary64 → Bool
  | finite _ _ => true
  | _ => false

/-- A finite number in units of `2^-scale`, with its sign. -/
def units? : Binary64 → Option Int
  | finite negative m => some (if negative then -(m.units : Int) else m.units)
  | _ => none

def isZero : Binary64 → Bool
  | finite _ m => m.significand == 0
  | _ => false

/-- Equality as numbers: zeros are equal whatever their sign, and not-a-number equals nothing. -/
def equal : Binary64 → Binary64 → Bool
  | finite a m, finite b n => (a == b && m == n) || (m.significand == 0 && n.significand == 0)
  | infinite a, infinite b => a == b
  | _, _ => false

/-- Equality with an integer, without rounding it. -/
def equalInt (x : Binary64) (n : Int) : Bool := x.units? == some (n * (Nat.pow 2 scale : Nat))

def neg : Binary64 → Binary64
  | finite s m => finite (!s) m
  | infinite s => infinite (!s)
  | nan => nan

/-- The number nearest to an integer; none if it lies beyond the largest. -/
def ofInt? (n : Int) : Option Binary64 :=
  (Magnitude.round? (n.natAbs * Nat.pow 2 scale) 1).map (finite (n < 0))

/-- The sum, rounded. A sum of zero is positive unless both summands carry a minus sign. -/
def add : Binary64 → Binary64 → Binary64
  | nan, _ => nan
  | _, nan => nan
  | infinite a, infinite b => if a = b then infinite a else nan
  | infinite a, finite _ _ => infinite a
  | finite _ _, infinite b => infinite b
  | finite a m, finite b n =>
    let x : Int := if a then -(m.units : Int) else m.units
    let y : Int := if b then -(n.units : Int) else n.units
    let total := x + y
    if total = 0 then finite (a && b) .zero
    else match Magnitude.round? total.natAbs 1 with
      | some r => finite (total < 0) r
      | none => infinite (total < 0)

def mul : Binary64 → Binary64 → Binary64
  | nan, _ => nan
  | _, nan => nan
  | infinite a, y => match y with
    | finite b n => if n.significand = 0 then nan else infinite (a != b)
    | infinite b => infinite (a != b)
    | nan => nan
  | finite a m, infinite b => if m.significand = 0 then nan else infinite (a != b)
  | finite a m, finite b n =>
    match Magnitude.round? (m.units * n.units) (Nat.pow 2 scale) with
    | some r => finite (a != b) r
    | none => infinite (a != b)

end Binary64

end ManifestChain
