import ManifestChain.Json.Basic
import ManifestChain.Number.Layout

/-!
# The compact text of a JSON document

No blank stands between tokens, and only what has to be escaped is: the quote, the backslash and the
control characters below the blank.
-/

namespace ManifestChain

namespace Json

/-- Numbers in documents: a single digit carries no fraction before a power of ten. -/
def numberLayout : Layout := ⟨false, "Infinity", "NaN"⟩

def escape (c : CodePoint) : Text :=
  match c with
  | .scalar '"' => "\\\""
  | .scalar '\\' => "\\\\"
  | .scalar '\n' => "\\n"
  | .scalar '\r' => "\\r"
  | .scalar '\t' => "\\t"
  | .scalar '\x08' => "\\b"
  | .scalar '\x0c' => "\\f"
  | c => if c.value < 0x20 then "\\u" ++ Text.ofNatHex 4 c.value else [c]

def printText (t : Text) : Text := .scalar '"' :: t.flatMap escape ++ [.scalar '"']

def printInt (n : Int) : Text := (if n < 0 then [.scalar '-'] else []) ++ Text.ofNat n.natAbs

mutual

def print : Json → Text
  | null => "null"
  | bool b => if b then "true" else "false"
  | int n => printInt n
  | float x => numberLayout.number x
  | text t => printText t
  | array [] => "[]"
  | array (j :: js) => .scalar '[' :: (print j ++ printItems js)
  | object [] => [.scalar '\x7b', .scalar '\x7d']
  | object ((k, j) :: ms) =>
    .scalar '\x7b' :: (printText k ++ .scalar ':' :: (print j ++ printMembers ms))

/-- The items after the first, and the closing bracket. -/
def printItems : List Json → Text
  | [] => [.scalar ']']
  | j :: js => .scalar ',' :: (print j ++ printItems js)

/-- The members after the first, and the closing brace. -/
def printMembers : List (Text × Json) → Text
  | [] => [.scalar '\x7d']
  | (k, j) :: ms => .scalar ',' :: (printText k ++ .scalar ':' :: (print j ++ printMembers ms))

end

end Json

end ManifestChain
