/-!
# What the command says about itself

The two texts of help and the line with the version.
-/

namespace WorkflowAugment.CommandLine

/-- The name of the command and its version. -/
def versionText : String := "pipec 0.0.1\n"

/-- Lines, each with its end. -/
def lines (ls : List String) : String := String.join (ls.map (· ++ "\n"))

/-- The help on one screen. -/
def shortHelp : String := lines [
  "Decorate a compiled workflow with CA trust material, pod identity env and exit hooks",
  "",
  "Usage: pipec [OPTIONS] --root-dag-id <ROOT_DAG_ID> [INPUT]",
  "",
  "Arguments:",
  "  [INPUT]  Workflow JSON to augment; stdin when omitted or \"-\"",
  "",
  "Options:",
  "      --root-dag-id <ROOT_DAG_ID>      Id of the root DAG invocation, handed to exit hooks of top-level tasks",
  "      --exit-template <EXIT_TEMPLATE>  Exit-handler template, overrides PIPEC_EXIT_TEMPLATE",
  "      --pretty                         Pretty-print the output document",
  "  -h, --help                           Print help (see more with '--help')",
  "  -V, --version                        Print version"]

/-- The help in full. -/
def longHelp : String := lines [
  "Decorate a compiled workflow with CA trust material, pod identity env and exit hooks.",
  "",
  "CA bundle, TLS policy and exit template are read from the environment (CABUNDLE_PATH, CABUNDLE_SECRET_NAME, " ++
    "ML_PIPELINE_TLS_ENABLED, PIPEC_EXIT_TEMPLATE).",
  "",
  "Usage: pipec [OPTIONS] --root-dag-id <ROOT_DAG_ID> [INPUT]",
  "",
  "Arguments:",
  "  [INPUT]",
  "          Workflow JSON to augment; stdin when omitted or \"-\"",
  "",
  "Options:",
  "      --root-dag-id <ROOT_DAG_ID>",
  "          Id of the root DAG invocation, handed to exit hooks of top-level tasks",
  "",
  "      --exit-template <EXIT_TEMPLATE>",
  "          Exit-handler template, overrides PIPEC_EXIT_TEMPLATE",
  "",
  "      --pretty",
  "          Pretty-print the output document",
  "",
  "  -h, --help",
  "          Print help (see a summary with '-h')",
  "",
  "  -V, --version",
  "          Print version"]

end WorkflowAugment.CommandLine
