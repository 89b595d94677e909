import ManifestChain.Text.Basic
import ManifestChain.Text.LetterCase.Table

/-!
# Lower-case texts

Every character is replaced by its lower case. Two of them need a rule of their own: a dotted
capital I becomes two code points, and a capital sigma becomes a final sigma at the end of a word.
-/

namespace ManifestChain

namespace LetterCase

def inRanges (ranges : List (Nat × Nat)) (n : Nat) : Bool :=
  ranges.any fun r => r.1 ≤ n && n ≤ r.2

/-- A letter that has a case and parts words. -/
def isCased (c : CodePoint) : Bool := inRanges casedRanges c.value

/-- A character that the end of a word is sought past. -/
def isIgnorable (c : CodePoint) : Bool := inRanges ignorableRanges c.value

/-- Whether the first code point that is not looked past is a cased letter. -/
def reachesCased : Text → Bool
  | [] => false
  | c :: t => if isIgnorable c then reachesCased t else isCased c

/-- The lower case of a character that needs no rule of its own. -/
def lowerOf (c : Char) : Char :=
  let n := c.toNat
  if n < 0x80 then (if 0x41 ≤ n ∧ n ≤ 0x5A then Char.ofNat (n + 0x20) else c)
  else match lowerRuns.find? fun r => r.1 ≤ n && n ≤ r.2.1 && (n - r.1) % r.2.2.1 == 0 with
    | some r => Char.ofNat (r.2.2.2 + (n - r.1))
    | none => c

/-- The lower case of a code point between the code points before it, the nearest first, and those
after it. -/
def lowerBetween (before : Text) (c : CodePoint) (after : Text) : Text :=
  match c with
  | .surrogate n => [.surrogate n]
  | .scalar '\u0130' => [.scalar 'i', .scalar '\u0307']
  | .scalar 'Σ' =>
    if reachesCased before && !reachesCased after then [.scalar 'ς'] else [.scalar 'σ']
  | .scalar d => [.scalar (lowerOf d)]

end LetterCase

namespace Text

/-- Lowers a text that follows `before`, whose nearest code point is first. -/
def lowerAfter (before : Text) : Text → Text
  | [] => []
  | c :: t => LetterCase.lowerBetween before c t ++ lowerAfter (c :: before) t

def lower (t : Text) : Text := lowerAfter [] t

end Text

end ManifestChain
