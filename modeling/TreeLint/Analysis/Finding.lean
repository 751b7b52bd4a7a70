import TreeLint.Rule.Check
import TreeLint.Rule.Message
import TreeLint.Text.Lines

/-! Defects in the words of a report: which file and which line, and what is wrong there. -/

namespace TreeLint

structure Finding where
  ruleId : String
  category : String
  severity : String
  message : String
  file : String
  line : Nat
  column : Nat
  deriving DecidableEq

/-- A defect of a file whose lines start where `index` says. -/
def Finding.ofDefect (file : String) (index : LineIndex) (defect : Defect) : Finding :=
  let (line, column) := index.position defect.span.start
  { ruleId := defect.rule.id
    category := defect.rule.category
    severity := defect.rule.severity
    message := Message.fill defect.rule.template defect.arguments
    file := file
    line := line
    column := column }

end TreeLint
