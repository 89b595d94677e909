import ManifestChain.Yaml.Node.Parser
import ManifestChain.Yaml.Node.Value
import ManifestChain.Yaml.Token.Lexer

/-!
# Reading YAML streams

A file is a stream of documents. They are read one after the other, so a fault in the values of one
document comes before a fault in the text of the next.
-/

namespace ManifestChain.Yaml

def tokensOf (bytes : List UInt8) : List Token := Token.ofSource (.ofBytes bytes)

/-- The values of the documents that are left, at most `fuel` of them. -/
def valuesFrom : Nat → Bool → Reader → Except Fault (List Value)
  | 0, _, _ => .ok []
  | fuel + 1, first, r => do
    match ← (Reading.document first).run r with
    | (none, _) => return []
    | (some d, r) =>
      let v ← d.value
      return v :: (← valuesFrom fuel false r)

def documents (bytes : List UInt8) : Except Fault (List Value) := do
  let tokens := tokensOf bytes
  valuesFrom (tokens.length + 1) true (.start tokens)

/-- The value of the only document of a file, null if there is none. -/
def document (bytes : List UInt8) : Except Fault Value := do
  match ← Reading.onlyDocument.run (.start (tokensOf bytes)) with
  | (none, _) => return .null
  | (some d, _) => d.value

end ManifestChain.Yaml
