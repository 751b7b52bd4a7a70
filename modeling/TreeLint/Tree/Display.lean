import TreeLint.Text.Quoted
import TreeLint.Tree.Node

/-! Short renderings of trees and nodes for people who look at them. -/

namespace TreeLint

namespace Tree

mutual

/-- A token as its kind and quoted text, a node as its kind and its children. -/
def display : Tree → String
  | token kind _ text =>
    if kind.isToken then kind.name ++ " " ++ Text.quoted text else kind.name ++ "([])"
  | node kind children =>
    if kind.isToken then kind.name ++ " " ++ Text.quoted ""
    else kind.name ++ "([" ++ displayAll children ++ "])"

def displayAll : List Tree → String
  | [] => ""
  | [tree] => tree.display
  | tree :: next :: rest => tree.display ++ ", " ++ displayAll (next :: rest)

end

end Tree

def Node.display (node : Node) : String :=
  let place := node.kind.name ++ "@" ++ node.span.display
  if node.isToken then place ++ " " ++ Text.quoted node.spelling else place

end TreeLint
