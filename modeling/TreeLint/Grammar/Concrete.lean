/-! Concrete trees, as a grammar-driven parser of C# delivers them: every node has the name of a
grammar symbol, says whether that symbol is named or is just a spelling such as `class`, and
covers a range of bytes. Text between two leaves belongs to no node. -/

namespace TreeLint

inductive Concrete where
  | node (symbol : String) (named : Bool) (start stop : Nat) (children : List Concrete)

namespace Concrete

def symbol : Concrete → String
  | node symbol .. => symbol

def named : Concrete → Bool
  | node _ named .. => named

def children : Concrete → List Concrete
  | node _ _ _ _ children => children

/-- One line of the outline of a concrete tree: a node without its children, and how many there
are. -/
structure Line where
  symbol : String
  named : Bool
  start : Nat
  stop : Nat
  childCount : Nat

/-- Puts a node in front of the trees that follow it, taking its children from them. -/
private def graft (line : Line) : Option (List Concrete) → Option (List Concrete)
  | none => none
  | some trees =>
    if line.childCount ≤ trees.length then
      some (node line.symbol line.named line.start line.stop (trees.take line.childCount) ::
        trees.drop line.childCount)
    else none

/-- The tree whose nodes, listed a parent before its children, are these lines. -/
def ofOutline? (lines : List Line) : Option Concrete :=
  match lines.foldr graft (some []) with
  | some [tree] => some tree
  | _ => none

end Concrete

end TreeLint
