import TreeLint.Tree.Node

/-! Pre-order traversal. A walk keeps the nodes still to be visited on a stack, the next one last; visiting
a node takes it off and puts its children on, the first of them last. `Node.preorder` says the same by
recursion on the tree, and `Node.descendants_eq_preorder` that both visit the same nodes in the same
order. -/

namespace TreeLint

structure Walk where
  /-- The nodes still to be visited, the next one last. -/
  stack : List Node

namespace Walk

def below (node : Node) : Walk :=
  ⟨node.children.reverse⟩

/-- The next node, and the walk after it. The children of the node are put on the stack in order and
then turned round, above the nodes that were there before. -/
def next? (walk : Walk) : Option (Node × Walk) :=
  match walk.stack.getLast? with
  | none => none
  | some node =>
    let rest := walk.stack.dropLast
    let grown := rest ++ node.children
    some (node, ⟨grown.take rest.length ++ (grown.drop rest.length).reverse⟩)

/-- The first `count` nodes of the walk, or all of them when there are fewer. -/
def take : Nat → Walk → List Node
  | 0, _ => []
  | count + 1, walk =>
    match walk.next? with
    | none => []
    | some (node, rest) => node :: rest.take count

/-- Number of nodes the walk has still to visit. -/
def remaining (walk : Walk) : Nat :=
  Tree.sizes (walk.stack.map Node.tree)

def toList (walk : Walk) : List Node :=
  walk.take walk.remaining

end Walk

namespace Node

def descendants (node : Node) : List Node :=
  (Walk.below node).toList

def descendantsOfKind (node : Node) (kind : Kind) : List Node :=
  node.descendants.filter fun descendant => descendant.kind = kind

def descendantTokens (node : Node) : List Node :=
  node.descendants.filter Node.isToken

def selfAndDescendants (node : Node) : List Node :=
  node :: node.descendants

mutual

/-- The subtree at `path` and all below it, in pre-order. -/
def preorderFrom (root : Tree) (path : List Nat) : Tree → List Node
  | .token kind leading text => [⟨root, path, .token kind leading text⟩]
  | .node kind children => ⟨root, path, .node kind children⟩ :: preorderAll root path 0 children

/-- The subtrees `trees`, which stand under `path` from index `index` on, in pre-order. -/
def preorderAll (root : Tree) (path : List Nat) (index : Nat) : List Tree → List Node
  | [] => []
  | tree :: rest =>
    preorderFrom root (path ++ [index]) tree ++ preorderAll root path (index + 1) rest

end

def preorder (node : Node) : List Node :=
  preorderAll node.root node.path 0 node.tree.children

theorem preorderAll_eq_flatMap (root : Tree) (path : List Nat) (index : Nat) (trees : List Tree) :
    preorderAll root path index trees =
      (trees.mapIdx fun position tree =>
        preorderFrom root (path ++ [index + position]) tree).flatten := by
  induction trees generalizing index with
  | nil => simp [preorderAll]
  | cons tree rest step =>
    simp only [preorderAll, step, List.mapIdx_cons, List.flatten_cons, Nat.add_zero]
    congr 4
    funext position
    simp [Nat.add_comm, Nat.add_left_comm]

theorem preorderFrom_eq (root : Tree) (path : List Nat) (tree : Tree) :
    preorderFrom root path tree = ⟨root, path, tree⟩ :: preorder ⟨root, path, tree⟩ := by
  cases tree <;> simp [preorderFrom, preorder, preorderAll, Tree.children]

theorem preorder_eq_flatMap (node : Node) :
    node.preorder = node.children.flatMap fun child => child :: child.preorder := by
  rw [preorder, preorderAll_eq_flatMap, children, List.flatMap_def]
  congr 1
  apply List.ext_getElem <;> simp [preorderFrom_eq]

end Node

namespace Walk

theorem next?_nil : (Walk.mk []).next? = none :=
  rfl

/-- One step: what was on the stack stays below the children of the visited node. -/
theorem next?_concat (rest : List Node) (node : Node) :
    (Walk.mk (rest ++ [node])).next? = some (node, ⟨rest ++ node.children.reverse⟩) := by
  simp [next?]

/-- A walk has come to its end, or there is a node on top of its stack. -/
theorem eq_nil_or_concat (walk : Walk) : walk = ⟨[]⟩ ∨ ∃ rest node, walk = ⟨rest ++ [node]⟩ := by
  obtain ⟨stack⟩ := walk
  rcases List.eq_nil_or_concat stack with rfl | ⟨rest, node, split⟩
  · exact .inl rfl
  · exact .inr ⟨rest, node, by rw [split, List.concat_eq_append]⟩

private theorem sizes_append (first second : List Tree) :
    Tree.sizes (first ++ second) = Tree.sizes first + Tree.sizes second := by
  induction first with
  | nil => simp [Tree.sizes]
  | cons tree trees step => simp [Tree.sizes, step, Nat.add_assoc]

private theorem sizes_reverse (trees : List Tree) : Tree.sizes trees.reverse = Tree.sizes trees := by
  induction trees with
  | nil => rfl
  | cons tree rest step =>
    rw [List.reverse_cons, sizes_append, step]
    simp [Tree.sizes, Nat.add_comm]

theorem remaining_concat (rest : List Node) (node : Node) :
    (Walk.mk (rest ++ [node])).remaining = (Walk.mk (rest ++ node.children.reverse)).remaining + 1 := by
  have subtrees : node.children.map Node.tree = node.tree.children := by
    apply List.ext_getElem <;> simp [Node.children]
  have whole : node.tree.size = Tree.sizes node.tree.children + 1 := by
    cases node.tree <;> simp [Tree.size, Tree.sizes, Tree.children, Nat.add_comm]
  simp [remaining, Tree.sizes, sizes_append, sizes_reverse, subtrees, whole]
  omega

/-- A walk visits the nodes on its stack from the last to the first, each followed by its own pre-order. -/
theorem toList_eq_flatMap (walk : Walk) :
    walk.toList = walk.stack.reverse.flatMap fun node => node :: node.preorder := by
  suffices visited : ∀ count (walk : Walk), walk.remaining = count →
      walk.take count = walk.stack.reverse.flatMap fun node => node :: node.preorder from
    visited _ walk rfl
  intro count
  induction count with
  | zero =>
    intro walk none
    rcases walk.eq_nil_or_concat with rfl | ⟨rest, node, rfl⟩
    · rfl
    · rw [remaining_concat] at none; omega
  | succ count step =>
    intro walk some
    rcases walk.eq_nil_or_concat with rfl | ⟨rest, node, rfl⟩
    · rfl
    · rw [remaining_concat] at some
      simp only [take, next?_concat]
      rw [step _ (by omega)]
      simp [List.flatMap_append, ← Node.preorder_eq_flatMap]

end Walk

/-- The walk visits the descendants in the pre-order of the tree. -/
theorem Node.descendants_eq_preorder (node : Node) : node.descendants = node.preorder := by
  rw [descendants, Walk.toList_eq_flatMap, preorder_eq_flatMap, Walk.below, List.reverse_reverse]

end TreeLint
