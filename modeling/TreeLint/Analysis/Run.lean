import TreeLint.Analysis.Source
import TreeLint.Files.Collect

/-! Analysing files and folders. All files are read and analysed before any is written, so the
reports do not depend on the order of the files. -/

namespace TreeLint

structure Summary where
  files : Nat
  lines : Nat
  findings : Nat
  fixes : Nat
  changedFiles : Nat
  failures : Nat

structure RunReport where
  findings : List Finding := []
  fixes : List FileFixes := []
  failures : List ReadFailure := []
  summary : Summary

inductive RunError where
  | missingPath (path : String)
  deriving DecidableEq

def RunError.message : RunError → String
  | missingPath path => s!"Path does not exist: {path}"

/-- Drops each path that is the same as the one before it. -/
def dropRepeated : List String → List String
  | [] => []
  | [path] => [path]
  | path :: next :: rest =>
    if Path.same path next then dropRepeated (path :: rest) else path :: dropRepeated (next :: rest)
termination_by paths => paths.length

/-- The files that paths lead to, each path once, in the order of paths. All paths must exist. -/
def Disk.sources (disk : Disk) (search : Search) (excluded paths : List String) :
    Except RunError (List String) :=
  match paths.find? fun path => !disk.pathExists path with
  | some path => .error (.missingPath path)
  | none =>
    let found := paths.flatMap fun path => (disk.collect search path excluded).files
    .ok (dropRepeated (found.mergeSort Path.le))

namespace Options

def analyzeFile (options : Options) (disk : Disk) (path : String) : FileReport :=
  match disk.at? path with
  | some (.file (.text source (some concrete))) => options.analyze path source concrete
  | some (.file (.text source none)) =>
    { failure := some ⟨path, "failed to parse source as C#"⟩
      lines := (Text.lines source).length }
  | some (.file (.binary _)) =>
    { failure := some ⟨path, "Failed to read file: stream did not contain valid UTF-8"⟩ }
  | some (.folder _) =>
    { failure := some ⟨path, "Failed to read file: Is a directory (os error 21)"⟩ }
  | none =>
    { failure := some ⟨path, "Failed to read file: No such file or directory (os error 2)"⟩ }

end Options

def total (counts : List Nat) : Nat :=
  counts.foldl (fun sum count => sum + count) 0

/-- Puts the reports on the single files together. -/
def RunReport.ofReports (reports : List FileReport) : RunReport :=
  let findings := reports.flatMap FileReport.findings
  let fixes := reports.filterMap FileReport.fixes
  let failures := reports.filterMap FileReport.failure
  { findings := findings
    fixes := fixes
    failures := failures
    summary :=
      { files := reports.length
        lines := total (reports.map FileReport.lines)
        findings := findings.length
        fixes := total (fixes.map fun file => file.applied.length)
        changedFiles := fixes.length
        failures := failures.length } }

/-- Writes the fixed text of a file, if it is to be written. -/
def Disk.store (disk : Disk) (report : FileReport) : Disk :=
  match report.fixes, report.fixedText with
  | some fixes, some text => if fixes.written then disk.writeText fixes.file text else disk
  | _, _ => disk

/-- Work on the files of a disk. What has been written stays so, even if the work then stops. -/
abbrev RunM := ExceptT RunError (StateM Disk)

def Options.run (options : Options) (search : Search) (paths : List String) : RunM RunReport := do
  let disk ← get
  let files ← disk.sources search options.excludedFolders paths
  let reports := files.map (options.analyzeFile disk)
  reports.forM fun report => modify fun disk => disk.store report
  return .ofReports reports

end TreeLint
