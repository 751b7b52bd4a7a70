import TreeLint.Tree.Basic
import TreeLint.Tree.Span

/-! Places in a tree. A node is a subtree together with the tree it stands in and the child indices
that lead to it from the root. Two nodes of one tree are the same node exactly when their paths
are equal, however alike their subtrees look. -/

namespace TreeLint

structure Node where
  /-- The whole tree. -/
  root : Tree
  /-- Child indices from the root. -/
  path : List Nat
  /-- The subtree found at `path`. -/
  tree : Tree

/-- The root as a place in its own tree. -/
def Tree.asNode (tree : Tree) : Node :=
  ⟨tree, [], tree⟩

def Tree.nodeAt? (root : Tree) (path : List Nat) : Option Node :=
  (root.get? path).map fun tree => ⟨root, path, tree⟩

namespace Node

/-- A node whose subtree is the one its path leads to. All navigation keeps this. -/
def Valid (node : Node) : Prop :=
  node.root.get? node.path = some node.tree

def kind (node : Node) : Kind :=
  node.tree.kind

def isToken (node : Node) : Bool :=
  node.tree.isToken

def spelling (node : Node) : String :=
  node.tree.spelling

/-- The text of the node without the trivia in front of it. -/
def text (node : Node) : String :=
  node.tree.trimmed

def index (node : Node) : Nat :=
  node.path.getLast?.getD 0

/-- Where the node starts, trivia included. -/
def offset (node : Node) : Nat :=
  node.root.offsetAt node.path

def fullSpan (node : Node) : Span :=
  ⟨node.offset, node.offset + node.tree.width⟩

/-- The bytes of the node without the trivia in front of it. -/
def span (node : Node) : Span :=
  ⟨node.offset + node.tree.leading.utf8ByteSize, node.offset + node.tree.width⟩

def children (node : Node) : List Node :=
  node.tree.children.mapIdx fun index child => ⟨node.root, node.path ++ [index], child⟩

def child? (node : Node) (index : Nat) : Option Node :=
  node.children[index]?

def childOfKind? (node : Node) (kind : Kind) : Option Node :=
  node.children.find? fun child => child.kind = kind

def childrenOfKind (node : Node) (kind : Kind) : List Node :=
  node.children.filter fun child => child.kind = kind

def firstInnerChild? (node : Node) : Option Node :=
  node.children.find? fun child => !child.isToken

def identifier? (node : Node) : Option Node :=
  node.childOfKind? .identifier

/-- The nodes met on the way down from `tree`, which stands at `above`, along a path. -/
def trail (root tree : Tree) (above : List Nat) : List Nat → List Node
  | [] => [⟨root, above, tree⟩]
  | index :: path =>
    ⟨root, above, tree⟩ ::
      match tree.children[index]? with
      | some child => trail root child (above ++ [index]) path
      | none => []

/-- The node, its parent, and so on up to the root. -/
def ancestorsAndSelf (node : Node) : List Node :=
  (trail node.root node.root [] node.path).reverse

def ancestors (node : Node) : List Node :=
  node.ancestorsAndSelf.tail

def parent? (node : Node) : Option Node :=
  node.ancestors.head?

/-- The tree in which `replacement` stands where the node stood. -/
def replaceWith (node : Node) (replacement : Tree) : Tree :=
  node.root.replaceAt node.path replacement

end Node

end TreeLint
