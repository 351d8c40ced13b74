import FeatureAlignment.Text

/-!
# Usage

* `Usage.overview` lists commands and options, the other texts say how one
  command is used.
-/

namespace FeatureAlignment

namespace Usage

/-- The name and version of the program. -/
def version : String := "schemalign 0.1.0"

/-- How `compile` is used. -/
def compile : String :=
  "Usage: schemalign compile <alignment> <source-schema> <target-schema> [--config f] [--format xml|json|yaml]"

/-- How `check` is used. -/
def check : String :=
  "Usage: schemalign check <alignment> <source-schema> <target-schema> [--config f] [--json]"

/-- How `rif` is used. -/
def rif : String := "Usage: schemalign rif <alignment> [--config f] [--output f]"

/-- How `validate` is used. -/
def validate : String := "Usage: schemalign validate <alignment> [--json]"

/-- **All commands and options**, with an empty line before and after. -/
def overview : String :=
  Text.join "\n" ["",
    "schemalign - compile schema alignments into app-schema mappings",
    "",
    "USAGE:",
    "    schemalign <COMMAND> [OPTIONS]",
    "",
    "COMMANDS:",
    "    compile <alignment> <source-schema> <target-schema>   Compile to a mapping document",
    "    check <alignment> <source-schema> <target-schema>     Compile and print the report only",
    "    rif <alignment>                                       Translate to RIF presentation syntax",
    "    validate <alignment>                                  Check alignment structure",
    "    schema [name]                                         Print JSON schema for a file format",
    "    version                                               Print version",
    "",
    "OPTIONS:",
    "    --config <file>               Compiler configuration (YAML)",
    "    --format <xml|json|yaml>      Document format (default: from config, else xml)",
    "    --output <file>               Output file (default: stdout)",
    "    --template-dir <dir>          Override documents/app_schema.jinja",
    "    --report                      Print the compile report to stderr (compile)",
    "    --in-order                    Compile cells in file order, no type-first pass",
    "    --json                        JSON output (check, validate)",
    "",
    "ENVIRONMENT:",
    "    SCHEMALIGN_LOG                Log filter (default: schemalign=warn)",
    "",
    "EXAMPLES:",
    "    schemalign compile landcover.yaml source.yaml lcv.yaml --config inspire.yaml",
    "    schemalign check landcover.yaml source.yaml lcv.yaml --json",
    "    schemalign rif landcover.yaml > landcover.rif",
    ""]

end Usage

end FeatureAlignment
