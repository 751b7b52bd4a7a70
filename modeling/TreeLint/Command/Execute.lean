import TreeLint.Analysis.Run
import TreeLint.Command.Arguments
import TreeLint.Command.Help
import TreeLint.Config.Settings
import TreeLint.Report.Json
import TreeLint.Report.Plain

/-! The command as a whole: from the files of a disk and the arguments to an exit code, a printed
report and the files afterwards. -/

namespace TreeLint

/-- What the command leaves to others: reading its arguments, reading settings files and searching
folders. -/
structure Host where
  arguments : List String → Except Interruption Arguments
  settings : String → Option Settings
  search : Search

namespace Command

structure Answer where
  /-- Zero if nothing is left to report, one if something is, two if the arguments are wrong. -/
  code : Nat
  output : String

/-- What the settings and the arguments together ask for. -/
def options (config : Config) (arguments : Arguments) : Options :=
  let options := config.options
  { ignoredRules := options.ignoredRules ++ arguments.ignore
    excludedFolders := options.excludedFolders ++ arguments.exclude
    fix := options.fix || arguments.fix || arguments.dryRun
    dryRun := arguments.dryRun }

def config (host : Host) (disk : Disk) (arguments : Arguments) : Config :=
  Config.find host.settings disk (arguments.paths.head?.getD ".")

def preamble (colored : Bool) (options : Options) (arguments : Arguments) : String :=
  if arguments.verbose && !arguments.json then exclusionsText colored options.excludedFolders
  else ""

def render (colored : Bool) (arguments : Arguments) (report : RunReport) : String :=
  if arguments.json then report.json else report.plain colored

/-- One if a finding or a failure is left. -/
def exitCode (report : RunReport) : Nat :=
  if 0 < report.summary.findings || 0 < report.summary.failures then 1 else 0

/-- What is said of a run with these options. -/
def answer (colored : Bool) (options : Options) (arguments : Arguments) (report : RunReport) :
    Answer :=
  ⟨exitCode report, preamble colored options arguments ++ render colored arguments report⟩

def analyze (host : Host) (colored : Bool) (arguments : Arguments) : RunM Answer := do
  let options := options (config host (← get) arguments) arguments
  return answer colored options arguments (← options.run host.search arguments.paths)

def execute (host : Host) (colored : Bool) (arguments : List String) : RunM Answer :=
  match host.arguments arguments with
  | .error .help => return ⟨0, Help.text⟩
  | .error .version => return ⟨0, Help.versionText⟩
  | .error (.usage _) => return ⟨2, ""⟩
  | .ok arguments => analyze host colored arguments

end Command

end TreeLint
