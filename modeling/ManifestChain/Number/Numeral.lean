import ManifestChain.Number.Decimal
import ManifestChain.Text.Blank
import ManifestChain.Text.Digit

/-!
# Numerals

The text of an integer, and the integers and fractions that texts denote. A decimal integer of more
than 4300 digits is neither written nor read. Both readers take white space at the ends, a sign and
digits of any script; that of integers also takes single underscores between digits.
-/

namespace ManifestChain

namespace Numeral

/-- The most digits a decimal numeral may have. -/
def digitLimit : Nat := 4300

/-- The least natural number of more digits. -/
def bound : Nat := Nat.pow 10 digitLimit

/-- The decimal numeral of an integer, if it keeps the limit. -/
def ofInt? (n : Int) : Option Text :=
  if n.natAbs < bound then
    some ((if n < 0 then [.scalar '-'] else []) ++ Text.ofNat n.natAbs)
  else none

/-- The value of a run of decimal digits, if it keeps the limit. -/
def ofDigits? (digits : List Char) : Option Nat :=
  if digits.length ≤ digitLimit then some (Nat.ofDigitChars 10 digits 0) else none

/-- White space: what is blank, the information separators excepted. -/
def isSpace (c : CodePoint) : Bool :=
  c.isBlank && !(0x1C ≤ c.value && c.value ≤ 0x1F)

/-- A text without white space at its ends and with ASCII digits for those of other scripts; none
if a character outside ASCII is left. -/
def plain? (t : Text) : Option (List Char) :=
  ((t.dropWhile isSpace).reverse.dropWhile isSpace).reverse.mapM fun c =>
    match c with
    | .scalar d =>
      if d.toNat < 0x80 then some d else c.digit?.map fun n => Char.ofNat (0x30 + n)
    | .surrogate _ => none

def sign : List Char → Bool × List Char
  | '-' :: rest => (true, rest)
  | '+' :: rest => (false, rest)
  | rest => (false, rest)

/-- The value of a digit in a base up to 36, letters of both cases counting from ten. -/
def digitIn? (base : Nat) (c : Char) : Option Nat :=
  let n := c.toNat
  let v :=
    if 0x30 ≤ n ∧ n ≤ 0x39 then n - 0x30
    else if 0x41 ≤ n ∧ n ≤ 0x5A then n - 0x41 + 10
    else if 0x61 ≤ n ∧ n ≤ 0x7A then n - 0x61 + 10
    else base
  if v < base then some v else none

/-- Removes single underscores between other characters; none for one at an end or two in a row. -/
def joinGroups? : List Char → Option (List Char)
  | [] => some []
  | ['_'] => none
  | '_' :: '_' :: _ => none
  | c :: rest => (joinGroups? rest).map fun r => if c = '_' then r else c :: r

/-- The letter that may stand after a leading zero to announce the base. -/
def baseLetter : Nat → Option Char
  | 2 => some 'b'
  | 8 => some 'o'
  | 16 => some 'x'
  | _ => none

/-- Drops a leading zero with the letter of the base, and an underscore after them. -/
def dropBase (base : Nat) : List Char → List Char
  | '0' :: c :: rest =>
    if baseLetter base = some c.toLower then
      match rest with
      | '_' :: more => more
      | _ => rest
    else '0' :: c :: rest
  | cs => cs

/-- The integer a text denotes in a base. Only decimal numerals have a limit on their digits. -/
def int? (base : Nat) (t : Text) : Option Int := do
  let (negative, rest) := sign (← plain? t)
  let body := dropBase base rest
  if body.head? = some '_' then none
  else
    let digits ← (← joinGroups? body).mapM (digitIn? base)
    if digits.isEmpty ∨ (base = 10 ∧ digitLimit < digits.length) then none
    else
      let n : Nat := digits.foldl (fun total d => total * base + d) 0
      return if negative then -(n : Int) else n

/-- The texts of numbers without digits, in lower case. -/
def special? (negative : Bool) (cs : List Char) : Option Binary64 :=
  let word := String.ofList (cs.map Char.toLower)
  if word = "inf" ∨ word = "infinity" then some (.infinite negative)
  else if word = "nan" then some .nan
  else none

/-- The power of ten after the digits: nothing, or a letter, a sign and digits. -/
def power? : List Char → Option Int
  | [] => some 0
  | c :: rest =>
    if c = 'e' ∨ c = 'E' then
      let (negative, digits) := sign rest
      if digits.isEmpty ∨ !digits.all Char.isDigit then none
      else
        let n := Nat.ofDigitChars 10 digits 0
        some (if negative then -(n : Int) else n)
    else none

def float? (t : Text) : Option Binary64 := do
  let (negative, rest) := sign (← plain? t)
  match special? negative rest with
  | some x => return x
  | none =>
    let whole := rest.takeWhile Char.isDigit
    let afterWhole := rest.dropWhile Char.isDigit
    let (fraction, afterFraction) := match afterWhole with
      | '.' :: more => (more.takeWhile Char.isDigit, more.dropWhile Char.isDigit)
      | _ => ([], afterWhole)
    if whole.isEmpty ∧ fraction.isEmpty then none
    else return .ofDecimal negative (.ofDigits whole fraction (← power? afterFraction))

end Numeral

end ManifestChain
