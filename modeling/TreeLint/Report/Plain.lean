import TreeLint.Analysis.Run
import TreeLint.Report.Style
import TreeLint.Report.Table

/-! Reports for people: what was fixed, what was found, what could not be read, and the figures. -/

namespace TreeLint

namespace RunReport

private def line (text : String) : String := text ++ "\n"

def banner (colored : Bool) : String :=
  line "" ++
  line ((Style.colored .cyan).apply colored "╔════════════════════════════════════════╗") ++
  line ((Style.strong .cyan).apply colored "║  C# Lint Results                       ║") ++
  line ((Style.colored .cyan).apply colored "╚════════════════════════════════════════╝") ++
  line ""

private def titledTable (style : Style) (colored : Bool) (title : String) (header : List String)
    (isEmpty : Bool) (rows : List (List String)) : String :=
  if isEmpty then ""
  else "\n" ++ line (style.apply colored title) ++ line (Table.render ⟨header, rows⟩)

def fixRows (fixes : FileFixes) : List (List String) :=
  fixes.applied.map fun fix =>
    [Path.display fixes.file, fix.ruleId, Text.join ", " fix.arguments,
      if fixes.written then "applied" else "dry run"]

def findingRow (finding : Finding) : List String :=
  [finding.ruleId, finding.message,
    s!"{Path.display finding.file}:{finding.line}:{finding.column}", finding.severity]

def failureRow (failure : ReadFailure) : List String :=
  [Path.display failure.file, failure.error]

def fixesText (report : RunReport) (colored : Bool) : String :=
  titledTable .heading colored "Fixes" ["File", "Rule ID", "Target", "Status"] report.fixes.isEmpty
    (report.fixes.flatMap fixRows)

def findingsText (report : RunReport) (colored : Bool) : String :=
  titledTable .heading colored "Findings" ["Rule ID", "Message", "Location", "Severity"]
    report.findings.isEmpty (report.findings.map findingRow)

def failuresText (report : RunReport) (colored : Bool) : String :=
  titledTable { Style.heading with color := some .red } colored "Parse Errors" ["File", "Error"]
    report.failures.isEmpty (report.failures.map failureRow)

/-- A figure that is good when it is zero. -/
def figure (colored : Bool) (label : String) (count : Nat) : String :=
  let style := if count = 0 then Style.colored .green else Style.strong .red
  label ++ ": " ++ style.apply colored (toString count)

def figuresText (summary : Summary) (colored : Bool) : String :=
  let fixes := (Style.strong .cyan).apply colored (toString summary.fixes)
  line (figure colored "Findings" summary.findings ++ "  " ++
    figure colored "Parse Errors" summary.failures ++ "  " ++
    "Fixed: " ++ fixes ++ " in " ++ toString summary.changedFiles ++ " files") ++ line ""

def extentText (summary : Summary) (colored : Bool) : String :=
  let files := Style.bolded.apply colored (toString summary.files)
  let lines := Style.bolded.apply colored (toString summary.lines)
  line (Style.faint.apply colored ("Analyzed " ++ files ++ " files (" ++ lines ++ " lines)"))

def plain (report : RunReport) (colored : Bool) : String :=
  banner colored ++ report.fixesText colored ++
  (if report.findings.isEmpty && report.failures.isEmpty then
    line ((Style.colored .green).apply colored "✓ All clean! No issues found.")
  else report.findingsText colored ++ report.failuresText colored) ++
  line "" ++ figuresText report.summary colored ++ extentText report.summary colored

end RunReport

def exclusionsText (colored : Bool) (excluded : List String) : String :=
  match excluded with
  | [] =>
    (Style.colored .green).apply colored "[OK] Using default exclusions only:" ++ " " ++
      Style.faint.apply colored (Text.join ", " usualExcludes) ++ "\n"
  | excluded =>
    (Style.strong .yellow).apply colored "Excluding:" ++ " " ++ Text.join ", " excluded ++ "\n"

end TreeLint
