import TreeLint.Analysis.Visitor
import TreeLint.Fix.Batch
import TreeLint.Grammar.Lowering

/-! Analysing one source text: fixing it if asked to, and reporting what is left. A suppression
comment silences the rules on its line and keeps the fixes away from the defects there. -/

namespace TreeLint

structure Options where
  /-- Ids of the rules to leave out. -/
  ignoredRules : List String := []
  /-- Folders to leave out, besides the usual ones. -/
  excludedFolders : List String := []
  fix : Bool := false
  /-- Whether fixes are only told and not written. -/
  dryRun : Bool := false

def Options.rules (options : Options) : List Rule :=
  Rule.enabled options.ignoredRules

/-- Whether the line a defect starts on has no suppression comment. -/
def unsuppressed (tree : Tree) (defect : Defect) : Bool :=
  let text := tree.text
  !(suppressedLines text).contains ((LineIndex.ofText text).line defect.span.start)

structure FileFixes where
  file : String
  applied : List AppliedFix
  /-- Whether the file gets the fixed text. -/
  written : Bool
  deriving DecidableEq

/-- A file that could not be read. -/
structure ReadFailure where
  file : String
  error : String
  deriving DecidableEq

structure FileReport where
  /-- What is left after fixing. -/
  findings : List Finding := []
  fixes : Option FileFixes := none
  failure : Option ReadFailure := none
  /-- Number of lines of the text as it was read. -/
  lines : Nat := 0
  /-- The text after fixing, if there were fixes. -/
  fixedText : Option String := none

/-- The fixed tree and its fixes; the tree itself and no fixes if none are asked for. -/
def Options.fixed (options : Options) (tree : Tree) : Tree × List AppliedFix :=
  if options.fix then
    let outcome := fixAllKept options.rules unsuppressed tree
    (outcome.tree, outcome.applied)
  else (tree, [])

def Options.analyze (options : Options) (file source : String) (concrete : Concrete) :
    FileReport :=
  let (final, applied) := options.fixed (concrete.toTree source)
  let text := final.text
  let suppressed := suppressedLines text
  let changed := !applied.isEmpty
  { findings := (findings options.rules file final).filter fun finding =>
      !suppressed.contains finding.line
    fixes := if changed then some ⟨file, applied, !options.dryRun⟩ else none
    lines := (Text.lines source).length
    fixedText := if changed then some text else none }

/-- The report on a text that stands in no file, so that nothing is written. -/
def FileReport.unwritten (report : FileReport) : FileReport :=
  { report with fixes := report.fixes.map fun fixes => { fixes with written := false } }

end TreeLint
