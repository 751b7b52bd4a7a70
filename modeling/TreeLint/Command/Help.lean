/-! What the command says about itself. -/

namespace TreeLint.Help

def programName : String := "sharplint"

def version : String := "0.3.1"

def versionText : String :=
  programName ++ " " ++ version ++ "\n"

def logVariable : String := "SHARPLINT_LOG"

def usage : List String :=
  ["Syntax-only lint rules and autofixes for C# sources",
   "",
   "Usage: sharplint [OPTIONS] [PATHS]...",
   "",
   "Arguments:",
   "  [PATHS]...  Files or directories to analyze [default: .]",
   "",
   "Options:",
   "      --ignore <RULE>  Rule codes to skip (repeatable)",
   "      --exclude <DIR>  Folders to exclude (repeatable)",
   "      --fix            Apply available fixes and write the changed files",
   "      --dry-run        Compute fixes and report them without writing files (implies --fix)",
   "      --json           Output raw JSON",
   "  -v, --verbose        Enable verbose output for debugging (debug-level logs)",
   "  -h, --help           Print help",
   "  -V, --version        Print version"]

def configuration : List String :=
  ["CONFIGURATION FILE (.sharplint.toml):",
   "  Searched for in the first path and its parent directories.",
   "",
   "  [sharplint]",
   "  ignore = [\"SL-S001\"]             # Rule codes to skip",
   "  exclude_folders = [\"Generated\"]  # Folders to skip, on top of bin/obj/.vs/...",
   "  fix = false                      # Apply fixes without --fix",
   "",
   "SUPPRESSION:",
   "  Add `// sharplint: ignore` to a line to silence findings on it.",
   "",
   "LOGGING:",
   "  Set SHARPLINT_LOG (e.g. `SHARPLINT_LOG=debug`) to control log output."]

def text : String :=
  String.join ((usage ++ [""] ++ configuration).map fun line => line ++ "\n")

end TreeLint.Help
