import TreeLint.Analysis.Finding

/-! Collecting defects and findings side by side. A visitor goes from node to node with its rules and
notes down what each of them has to say, in the order in which it hears of it. -/

namespace TreeLint

structure Visitor where
  rules : List Rule
  file : String
  index : LineIndex
  defects : List Defect := []
  findings : List Finding := []

namespace Visitor

def start (rules : List Rule) (file text : String) : Visitor :=
  { rules, file, index := .ofText text }

def record (visitor : Visitor) (defect : Defect) : Visitor :=
  { visitor with
    defects := visitor.defects ++ [defect]
    findings := visitor.findings ++ [.ofDefect visitor.file visitor.index defect] }

/-- Asks a rule about a node, if the rule looks at nodes of that kind. -/
def ask (node : Node) (visitor : Visitor) (rule : Rule) : Visitor :=
  if rule.anchorKind = node.kind then
    match rule.check node with
    | some defect => visitor.record defect
    | none => visitor
  else visitor

def visit (visitor : Visitor) (node : Node) : Visitor :=
  visitor.rules.foldl (ask node) visitor

def visitTree (visitor : Visitor) (tree : Tree) : Visitor :=
  tree.asNode.selfAndDescendants.foldl visit visitor

end Visitor

def findings (rules : List Rule) (file : String) (tree : Tree) : List Finding :=
  ((Visitor.start rules file tree.text).visitTree tree).findings

end TreeLint
