import TreeLint.Tree.Basic

/-! Outlines: a tree as the list of its nodes, a parent before its children, each without its
children but with their number. What is of a token kind is listed as a token. An outline reads back
to the well-formed tree it was made of. -/

namespace TreeLint

namespace Tree

inductive Line where
  | token (kind : Kind) (leading text : String)
  | node (kind : Kind) (childCount : Nat)

mutual

def toOutline : Tree → List Line
  | token kind leading text => if kind.isToken then [.token kind leading text] else [.node kind 0]
  | node kind children =>
    if kind.isToken then [.token kind "" ""]
    else .node kind children.length :: toOutlines children

def toOutlines : List Tree → List Line
  | [] => []
  | tree :: rest => tree.toOutline ++ toOutlines rest

end

/-- Puts a line in front of the trees that follow it, taking a node's children from them. -/
def graft : Line → Option (List Tree) → Option (List Tree)
  | _, none => none
  | .token kind leading text, some trees => some (token kind leading text :: trees)
  | .node kind childCount, some trees =>
    if childCount ≤ trees.length then
      some (node kind (trees.take childCount) :: trees.drop childCount)
    else none

/-- The tree with this outline. -/
def ofOutline? (lines : List Line) : Option Tree :=
  match lines.foldr graft (some []) with
  | some [tree] => some tree
  | _ => none

mutual

private theorem foldr_toOutline (tree : Tree) (trees : List Tree) (shape : tree.WellFormed) :
    tree.toOutline.foldr graft (some trees) = some (tree :: trees) := by
  cases tree with
  | token kind leading text =>
    simp only [WellFormed] at shape
    simp [toOutline, shape, graft]
  | node kind children =>
    obtain ⟨inner, below⟩ := by simpa only [WellFormed] using shape
    simp only [toOutline, inner, Bool.false_eq_true, if_false, List.foldr_cons,
      foldr_toOutlines children trees below]
    simp [graft]

private theorem foldr_toOutlines (children trees : List Tree) (shape : AllWellFormed children) :
    (toOutlines children).foldr graft (some trees) = some (children ++ trees) := by
  cases children with
  | nil => rfl
  | cons tree rest =>
    obtain ⟨first, below⟩ := by simpa only [AllWellFormed] using shape
    simp only [toOutlines, List.foldr_append, foldr_toOutlines rest trees below]
    exact foldr_toOutline tree (rest ++ trees) first

end

theorem ofOutline?_toOutline (tree : Tree) (shape : tree.WellFormed) :
    ofOutline? tree.toOutline = some tree := by
  simp [ofOutline?, foldr_toOutline tree [] shape]

end Tree

end TreeLint
