import TreeLint.Fix.Negation
import TreeLint.Fix.ToString

/-! Fixing one defect. A fix is asked for by the id of a rule and the span of a defect. It looks the
place up again and checks what it finds there, so that a defect of another tree is refused rather
than applied to the wrong node. -/

namespace TreeLint

def hasFix (ruleId : String) : Bool :=
  (Rule.ofId? ruleId).isSome

def applyFix (tree : Tree) (ruleId : String) (span : Span) : Except FixError Tree :=
  match Rule.ofId? ruleId with
  | some .negatedName => Fix.negatedName tree span
  | some .missingToString => Fix.missingToString tree span
  | none => .error (.unknownRule ruleId)

/-- Fixes a defect in a tree, which need not be the tree it was found in. -/
def Defect.fixIn (defect : Defect) (tree : Tree) : Except FixError Tree :=
  applyFix tree defect.rule.id defect.span

end TreeLint
