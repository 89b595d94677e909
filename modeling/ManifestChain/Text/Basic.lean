/-!
# Text as a sequence of code points

A text is a list of code points. Surrogates that stand alone are code points too: such a text has a
length, an order and a quoted form, but no encoding in bytes. The order is by code point.
-/

namespace ManifestChain

/-- A code point: a Unicode scalar value, or a surrogate that stands for no character. -/
inductive CodePoint where
  | scalar (c : Char)
  | surrogate (n : Fin 2048)
deriving DecidableEq, Repr

namespace CodePoint

/-- The number of a code point, below `0x110000`. -/
def value : CodePoint → Nat
  | scalar c => c.toNat
  | surrogate n => 0xD800 + n

def ofNat? (n : Nat) : Option CodePoint :=
  if 0xD800 ≤ n ∧ n < 0xE000 then some (surrogate (Fin.ofNat 2048 (n - 0xD800)))
  else if n < 0x110000 then some (scalar (Char.ofNat n))
  else none

/-- The character of a code point; a lone surrogate has none. -/
def char? : CodePoint → Option Char
  | scalar c => some c
  | surrogate _ => none

def isSurrogate : CodePoint → Bool
  | scalar _ => false
  | surrogate _ => true

end CodePoint

/-- A text: a list of code points, lone surrogates allowed. -/
abbrev Text := List CodePoint

namespace Text

def ofChars (cs : List Char) : Text := cs.map .scalar

def ofString (s : String) : Text := ofChars s.toList

end Text

instance : Coe String Text := ⟨Text.ofString⟩

instance : Coe Char CodePoint := ⟨.scalar⟩

namespace Text

/-- The characters of a text, if no surrogate stands alone in it. -/
def chars? (t : Text) : Option (List Char) := t.mapM CodePoint.char?

def scalars (t : Text) : List Char := t.filterMap CodePoint.char?

/-- Whether the text holds no lone surrogate, so that it has an encoding. -/
def isEncodable (t : Text) : Bool := t.all fun c => !c.isSurrogate

/-- The order of texts: by the first code points that differ, a text before its extensions. -/
def le : Text → Text → Bool
  | [], _ => true
  | _ :: _, [] => false
  | a :: s, b :: t =>
    if a.value < b.value then true else if b.value < a.value then false else le s t

/-- The parts between the separators, at least one. -/
def splitOn (sep : CodePoint) : Text → List Text
  | [] => [[]]
  | c :: t =>
    if c = sep then [] :: splitOn sep t
    else match splitOn sep t with
      | [] => [[c]]
      | part :: parts => (c :: part) :: parts

/-- The parts, one after the other, with a separator between two neighbours. -/
def join (sep : Text) : List Text → Text
  | [] => []
  | [t] => t
  | t :: u :: rest => t ++ sep ++ join sep (u :: rest)

def ofNat (n : Nat) : Text := ofChars (Nat.toDigits 10 n)

/-- The decimal digits of a number, zeros put in front up to a width. -/
def ofNatPadded (width n : Nat) : Text :=
  let digits := Nat.toDigits 10 n
  ofChars (List.replicate (width - digits.length) '0' ++ digits)

/-- A number in hexadecimal with lower-case digits, zeros put in front up to a width. -/
def ofNatHex (width n : Nat) : Text :=
  let digits := Nat.toDigits 16 n
  ofChars (List.replicate (width - digits.length) '0' ++ digits)

/-- Whether the second text begins with the first. -/
def startsWith (t lead : Text) : Bool := lead.isPrefixOf t

def endsWith (t tail : Text) : Bool := tail.isSuffixOf t

end Text

end ManifestChain
