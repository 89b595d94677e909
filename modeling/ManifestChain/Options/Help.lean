import ManifestChain.Text.Basic

/-!
# Usage and help

The texts that are printed for a command line that is wrong or asks for help, set in eighty columns.
-/

namespace ManifestChain

namespace Help

def program : Text := "oamtranslate"

def usage : Text :=
  "usage: oamtranslate [-h] --from-dir FROM_DIR [--workload-name WORKLOAD_NAME]\n" ++
  "                    [--workload-namespace WORKLOAD_NAMESPACE]\n" ++
  "                    [--workload-uid WORKLOAD_UID] [--config CONFIG]\n" ++
  "                    [--translators TRANSLATORS] [-o OUTPUT]\n"

/-- What the program does, and what its flags mean. -/
def description : Text :=
  "Apply OAM translators (service injection, KubernetesApplication wrapping) to\n" ++
  "rendered workload manifests\n" ++
  "\n" ++
  "options:\n" ++
  "  -h, --help            show this help message and exit\n" ++
  "  --from-dir FROM_DIR   Directory of rendered YAML manifests for one workload\n" ++
  "  --workload-name WORKLOAD_NAME\n" ++
  "                        Workload name (overrides config)\n" ++
  "  --workload-namespace WORKLOAD_NAMESPACE\n" ++
  "                        Workload namespace (overrides config)\n" ++
  "  --workload-uid WORKLOAD_UID\n" ++
  "                        Workload UID (overrides config)\n" ++
  "  --config CONFIG       Path to oamtranslate.yaml (default: oamtranslate.yaml)\n" ++
  "  --translators TRANSLATORS\n" ++
  "                        Comma-separated translator chain, overrides config\n" ++
  "                        (available: kube-app-wrapper, service-injector)\n" ++
  "  -o OUTPUT, --output OUTPUT\n" ++
  "                        Output file (default: stdout)\n"

def full : Text := usage ++ "\n" ++ description

end Help

end ManifestChain
