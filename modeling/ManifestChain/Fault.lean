import ManifestChain.Value.Basic

/-!
# Faults

Why an operation fails. The first three are the library's own and carry a message; the others are
faults of the data or of the files that an operation meets on its way.
-/

namespace ManifestChain

inductive SerializationFault where
  /-- The child is no mapping; the text is its kind. -/
  | notManifest (kind : Text)
  /-- A mapping in it has a key that is no text; the path leads to the key. -/
  | nonTextKey (path : Text)
  /-- A value in it has no payload form; the text is its kind. -/
  | unsupported (kind : Text)
  /-- A number in it is infinite or not a number. -/
  | nonFinite
  /-- An integer in it has more decimal digits than are written. -/
  | tooManyDigits
deriving DecidableEq, Repr

inductive Fault where
  /-- A child cannot be captured as a payload. -/
  | serialization (cause : SerializationFault) (workload : Value) (index : Option Int)
  /-- The first port that a deployment declares is not valid. The texts show deployment and port. -/
  | invalidPort (deployment port : Text) (workload : Value) (index : Nat)
  /-- A chain names a translator that is not registered. The text shows the name. -/
  | unknownTranslator (name : Value) (shown : Text)
  /-- A value is of a kind that the operation does not take. -/
  | wrongKind
  /-- A value does not know the operation. -/
  | noSuchMember
  /-- A value is of the right kind, but not one that the operation takes. -/
  | badValue
  /-- A moment in time lies outside the years that have a date, or a number outside its range. -/
  | outOfRange
  /-- A text holds a lone surrogate and so has no encoding. -/
  | unencodable
  /-- Bytes are not the encoding of a text. -/
  | undecodable
  /-- A payload is no JSON document. -/
  | malformedJson
  /-- A file is no YAML stream, or a value has no form in one. -/
  | malformedYaml
  /-- A document refers to a node from inside it, so it stands for no value that ends. -/
  | endless
  | missingKey
  | indexOutOfRange
  | fileNotFound
  | isDirectory
  | notDirectory
  /-- A name has more bytes than a directory can hold, or a path has too many. -/
  | nameTooLong
  /-- A record cannot be changed. -/
  | frozenRecord

namespace SerializationFault

/-- What is wrong with a child, in words that follow the child's number. -/
def text : SerializationFault → Text
  | notManifest kind => "is a " ++ kind ++ ", not a manifest"
  | nonTextKey path => "has a non-string key at " ++ path
  | unsupported kind =>
    "cannot be serialized: value of type " ++ kind ++ " is not serializable"
  | nonFinite => "cannot be serialized: Out of range float values are not JSON compliant"
  | tooManyDigits =>
    "cannot be serialized: Exceeds the limit (4300 digits) for integer string conversion; " ++
      "use sys.set_int_max_str_digits() to increase the limit"

end SerializationFault

namespace Fault

/-- The number of a child, or the word for none. -/
def indexText : Option Int → Text
  | none => "None"
  | some i => (if i < 0 then "-" else "") ++ Text.ofNat i.natAbs

/-- The message of a fault of the library's own. -/
def message? : Fault → Option Text
  | serialization cause _ index => some ("child #" ++ indexText index ++ " " ++ cause.text)
  | invalidPort deployment port _ _ =>
    some (deployment ++ ": first declared port " ++ port ++ " has no valid containerPort")
  | unknownTranslator _ shown => some ("unknown translator '" ++ shown ++ "'")
  | _ => none

def isOwn (f : Fault) : Bool := f.message?.isSome

end Fault

end ManifestChain
