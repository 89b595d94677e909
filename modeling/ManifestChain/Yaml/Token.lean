import ManifestChain.Fault

/-!
# Tokens of a YAML stream
-/

namespace ManifestChain.Yaml

/-- A tag as it is written: a suffix after a handle, or in full. -/
structure TagName where
  handle : Option String
  suffix : String
deriving DecidableEq, Repr

inductive Directive where
  | version (major : Nat)
  /-- Lets a handle stand for the beginning of a tag. -/
  | handle (name lead : String)
  | unknown
deriving DecidableEq, Repr

inductive Token where
  | streamEnd
  | directive (d : Directive)
  | documentStart
  | documentEnd
  | blockSequenceStart
  | blockMappingStart
  | blockEnd
  | flowSequenceStart
  | flowSequenceEnd
  | flowMappingStart
  | flowMappingEnd
  | blockEntry
  | flowEntry
  | key
  | value
  | alias (name : String)
  | anchor (name : String)
  | tag (name : TagName)
  | scalar (content : Text) (isPlain : Bool)
  /-- What follows in the stream cannot be read. -/
  | broken (fault : Fault)

end ManifestChain.Yaml
