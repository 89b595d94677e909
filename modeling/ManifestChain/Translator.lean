import ManifestChain.Text.Basic

/-!
# The registered translators

A translator turns the children of a workload into other children. Two are registered, each under a
name that chains refer to it by.
-/

namespace ManifestChain

inductive Translator where
  | serviceInjector
  | kubeAppWrapper
deriving DecidableEq, Repr

namespace Translator

/-- The name that chains use. -/
def name : Translator → Text
  | serviceInjector => "service-injector"
  | kubeAppWrapper => "kube-app-wrapper"

/-- The translators in the order of their names. -/
def all : List Translator := [kubeAppWrapper, serviceInjector]

/-- The translator of a name, if one is registered under it. -/
def ofName? (name : Text) : Option Translator := all.find? fun t => t.name = name

def typeName : Translator → Text
  | serviceInjector => "ServiceInjector"
  | kubeAppWrapper => "KubeAppWrapper"

end Translator

end ManifestChain
