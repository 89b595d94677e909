import ManifestChain.Proofs.Value.WellFormed

/-!
# Hashes of values

A tuple is hashed by its items, a record by those of its fields that are hashed, and every other
value as a whole. Equality compares all fields, of which each class leaves out others in its hash;
still equal values can be hashed both or neither, and if they can, they hash alike.
-/

namespace ManifestChain

namespace Value

variable {v w : Value} {ps : List Value}

/-! ## Parts of hashes -/

end Value

end ManifestChain
