import TreeLint.Proofs.Lowered

/-! Walks with a stack are the recursive pre-order. The stack always stands for what is still to be visited, its nodes
from the top down, each with all below it. So a walk visits every strict descendant of a node and then ends. What it
visits can be reached by going from parent to child, and has the offset, the index and the ancestors that are found on
that way. -/

namespace TreeLint

namespace Walk

inductive Yields : Walk → List Node → Prop where
  | done {walk : Walk} : walk.next? = none → Yields walk []
  | step {walk rest : Walk} {node : Node} {nodes : List Node} :
      walk.next? = some (node, rest) → Yields rest nodes → Yields walk (node :: nodes)

/-- As many steps as there are nodes on the stack and below them bring a walk to its end. -/
theorem yields_toList (walk : Walk) : walk.Yields walk.toList := by
  suffices ended : ∀ count (walk : Walk), walk.remaining = count → walk.Yields (walk.take count) from ended _ walk rfl
  intro count
  induction count with
  | zero =>
    intro walk none
    rcases walk.eq_nil_or_concat with rfl | ⟨rest, node, rfl⟩
    · exact .done next?_nil
    · rw [remaining_concat] at none
      omega
  | succ count ih =>
    intro walk some
    rcases walk.eq_nil_or_concat with rfl | ⟨rest, node, rfl⟩
    · cases some
    · rw [remaining_concat] at some
      simp only [take, next?_concat]
      exact .step (next?_concat rest node) (ih _ (by omega))

end Walk

namespace Node
open TreeLint.Tree

theorem descendants_eq_flatMap (node : Node) :
    node.descendants = node.children.flatMap fun child => child :: child.descendants := by
  rw [descendants_eq_preorder, preorder_eq_flatMap]
  simp only [descendants_eq_preorder]

theorem nodup_descendants {node : Node} (valid : node.Valid) : node.descendants.Nodup :=
  (pairwise_descendants valid).imp fun apart same => apart (by rw [same])

def follow (node : Node) : List Nat → Option Node
  | [] => some node
  | index :: path => (node.child? index).bind fun child => child.follow path

theorem child?_eq_some {node child : Node} {index : Nat} :
    node.child? index = some child ↔ child ∈ node.children ∧ child.index = index := by
  rw [child?, children_getElem?, Option.map_eq_some_iff]
  constructor
  · intro known
    obtain ⟨tree, known, rfl⟩ := known
    refine ⟨List.mem_of_getElem? (i := index) ?_, by simp [Node.index]⟩
    rw [children_getElem?, known]
    rfl
  · intro standing
    obtain ⟨member, rfl⟩ := standing
    obtain ⟨sameRoot, path, known⟩ := mem_children member
    exact ⟨child.tree, known, by rw [← sameRoot, ← path]⟩

/-- Going down child by child leads where the indices lead in the tree. -/
theorem follow_eq_some {node other : Node} {below : List Nat} :
    node.follow below = some other ↔
      other.root = node.root ∧ other.path = node.path ++ below ∧ node.tree.get? below = some other.tree := by
  induction below generalizing node with
  | nil =>
    rw [follow, get?_nil, List.append_nil, Option.some_inj, Option.some_inj]
    constructor
    · intro same
      rw [same]
      exact ⟨rfl, rfl, rfl⟩
    · intro standing
      obtain ⟨sameRoot, path, same⟩ := standing
      cases node
      cases other
      cases sameRoot
      cases path
      cases same
      rfl
  | cons index below ih =>
    rw [follow, child?, children_getElem?, get?_cons]
    cases node.tree.children[index]? with
    | none => simp
    | some child =>
      simp only [Option.map_some, Option.bind_some]
      rw [ih, List.append_assoc, List.singleton_append]

theorem mem_descendants_iff {node other : Node} (valid : node.Valid) :
    other ∈ node.descendants ↔ ∃ below, below ≠ [] ∧ node.follow below = some other := by
  rw [mem_descendants valid]
  constructor
  · intro inside
    obtain ⟨sameRoot, found, ⟨below, path⟩, proper⟩ := inside
    refine ⟨below, ?_, follow_eq_some.mpr ⟨sameRoot, path.symm, found.get?_below sameRoot valid path⟩⟩
    intro nowhere
    exact proper (by rw [← path, nowhere, List.append_nil])
  · intro reached
    obtain ⟨below, proper, reached⟩ := reached
    obtain ⟨sameRoot, path, present⟩ := follow_eq_some.mp reached
    refine ⟨sameRoot, ?_, ⟨below, path.symm⟩, ?_⟩
    · rw [Valid, sameRoot, path, get?_append, show node.root.get? node.path = _ from valid]
      exact present
    · rw [path]
      simpa using proper

/-- The indices of the node and of the nodes around it, the outermost first. The root has none. -/
def indices (node : Node) : List Nat :=
  ((node.ancestorsAndSelf.filter fun around => around.parent?.isSome).map index).reverse

end Node

namespace Tree

/-- What going down from the root tells of a node, one child after the other: where it starts, its index, and the nodes
that have been passed, the last one first. -/
inductive Navigated (tree : Tree) : Node → Nat → Nat → List Node → Prop where
  | root : Navigated tree tree.asNode 0 0 []
  | child {parent child : Node} {offset above index : Nat} {passed : List Node} :
      Navigated tree parent offset above passed → parent.child? index = some child →
      Navigated tree child (offset + widths (parent.tree.children.take index)) index (parent :: passed)

theorem ancestorsAndSelf_eq {tree : Tree} {node : Node} (held : tree.Holds node) :
    node.ancestorsAndSelf = node :: node.ancestors := by
  refine Holds.induct (motive := fun node => node.ancestorsAndSelf = node :: node.ancestors) rfl ?_ held
  intro node held _ child member
  rw [Node.ancestors_of_mem_children held.valid member, Node.ancestorsAndSelf_of_mem_children held.valid member]

/-- The indices read off on the way up are the path. -/
theorem indices_eq_path {tree : Tree} {node : Node} (held : tree.Holds node) : node.indices = node.path := by
  refine Holds.induct (motive := fun node => node.indices = node.path) rfl ?_ held
  intro node held ih child member
  rw [Node.indices] at ih ⊢
  rw [Node.ancestorsAndSelf_of_mem_children held.valid member,
    List.filter_cons_of_pos (by rw [Node.parent?_of_mem_children held.valid member]; rfl), List.map_cons,
    List.reverse_cons, ih, (Node.mem_children member).2.1]

theorem offset_of_mem_children {node child : Node} (valid : node.Valid) (member : child ∈ node.children) :
    child.offset = node.offset + widths (node.tree.children.take child.index) := by
  obtain ⟨sameRoot, path, known⟩ := Node.mem_children member
  rw [Node.offset, sameRoot, path, offsetAt_append valid, offsetAt_cons known, offsetAt_nil, Nat.add_zero, Node.offset]

theorem Navigated.holds {tree : Tree} {node : Node} {offset index : Nat} {passed : List Node}
    (navigated : tree.Navigated node offset index passed) : tree.Holds node := by
  induction navigated with
  | root => exact holds_asNode tree
  | child _ known ih => exact ih.child (Node.child?_eq_some.mp known).1

/-- Every node can be reached from the root, and all ways there tell the same. -/
theorem navigated_iff {tree : Tree} {node : Node} (held : tree.Holds node) {offset index : Nat} {passed : List Node} :
    tree.Navigated node offset index passed ↔ offset = node.offset ∧ index = node.index ∧ passed = node.ancestors := by
  constructor
  · intro navigated
    induction navigated with
    | root => exact ⟨rfl, rfl, rfl⟩
    | child above known ih =>
      obtain ⟨member, rfl⟩ := Node.child?_eq_some.mp known
      obtain ⟨start, _, passed⟩ := ih above.holds
      refine ⟨?_, rfl, ?_⟩
      · rw [start, offset_of_mem_children above.holds.valid member]
      · rw [passed, Node.ancestors_of_mem_children above.holds.valid member, ancestorsAndSelf_eq above.holds]
  · intro told
    obtain ⟨rfl, rfl, rfl⟩ := told
    refine Holds.induct (motive := fun node => tree.Navigated node node.offset node.index node.ancestors) .root ?_ held
    intro node held ih child member
    rw [offset_of_mem_children held.valid member, Node.ancestors_of_mem_children held.valid member, ancestorsAndSelf_eq held]
    exact .child ih (Node.child?_eq_some.mpr ⟨member, rfl⟩)

theorem texts_eq_join (trees : List Tree) : texts trees = String.join (trees.map Tree.text) := by
  induction trees with
  | nil => rfl
  | cons tree rest ih => rw [texts, ih, List.map_cons, String.join_cons]

theorem text_of_isToken {tree : Tree} (isToken : tree.isToken = true) (shape : tree.WellFormed) :
    tree.text = tree.leading ++ tree.spelling := by
  cases tree with
  | token kind leading text =>
    have kindIsToken : kind.isToken = true := isToken
    simp [Tree.text, Tree.leading, firstToken?, ownLeading, spelling, kindIsToken]
  | node kind children =>
    have inner := ((wellFormed_node kind children).mp shape).1
    rw [Tree.isToken, kind_node, inner] at isToken
    cases isToken

theorem join_descendantTokens {node : Node} (shape : node.tree.WellFormed) (inner : node.isToken = false) :
    String.join (node.descendantTokens.map fun leaf => leaf.tree.leading ++ leaf.spelling) = node.tree.text := by
  have tokens := map_tree_descendantTokens shape inner
  have each : ∀ leaf ∈ node.descendantTokens, leaf.tree.leading ++ leaf.spelling = leaf.tree.text := by
    intro leaf member
    obtain ⟨visited, isToken⟩ := List.mem_filter.mp member
    have among : leaf.tree ∈ subtreesOf node.tree.children := map_tree_descendants node ▸ List.mem_map_of_mem visited
    have inside : leaf.tree ∈ node.tree.subtrees := by
      rw [subtrees_eq, ← subtreesOf_eq_flatMap]
      exact List.mem_cons_of_mem _ among
    obtain ⟨path, present⟩ := mem_subtrees.mp inside
    exact (text_of_isToken isToken (shape.get? present)).symm
  rw [List.map_congr_left each, ← texts_tokens shape, texts_eq_join, ← tokens, List.map_map]
  rfl

end Tree

structure Node.Traversed (node : Node) : Prop where
  yields : (Walk.below node).Yields node.descendants
  /-- A child comes before all that lies below it, and that before the next child. -/
  preorder : node.descendants = node.children.flatMap fun child => child :: child.descendants
  once : node.descendants.Nodup
  everywhere : ∀ other, other ∈ node.descendants ↔ ∃ below, below ≠ [] ∧ node.follow below = some other
  /-- Each node is where going down from the root finds it. -/
  navigated : ∀ other ∈ node.descendants, ∀ offset index passed,
    node.root.Navigated other offset index passed ↔ offset = other.offset ∧ index = other.index ∧ passed = other.ancestors
  returns : ∀ other ∈ node.descendants, node.root.asNode.follow other.indices = some other
  text : node.isToken = false →
    String.join (node.descendantTokens.map fun leaf => leaf.tree.leading ++ leaf.spelling) = node.tree.text

namespace Tree

/-- The walk below a node visits its strict descendants in recursive pre-order, each once and at its own place, and the
tokens among them have the text of the node. -/
theorem descendants_traversed {tree : Tree} {node : Node} (shape : tree.WellFormed) (held : tree.Holds node) :
    node.Traversed := by
  have sameRoot := held.root_eq
  have standing : ∀ other ∈ node.descendants, tree.Holds other := by
    intro other member
    obtain ⟨root, valid, _⟩ := (mem_descendants held.valid).mp member
    exact ⟨root.trans sameRoot, valid⟩
  refine ⟨Walk.yields_toList _, node.descendants_eq_flatMap, Node.nodup_descendants held.valid,
    fun other => Node.mem_descendants_iff held.valid, ?_, ?_, join_descendantTokens (shape.get? held.present)⟩
  · intro other member offset index passed
    rw [sameRoot]
    exact navigated_iff (standing other member)
  · intro other member
    have there := standing other member
    rw [sameRoot, indices_eq_path there]
    exact Node.follow_eq_some.mpr ⟨there.root_eq, rfl, there.present⟩

def braced : Tree :=
  .node .compilationUnit
    [.node .block
      [.token .punctuation "" "\x7b", .node .unknown [],
        .node .expressionStatement [.token .identifier " " "é", .token .punctuation "" ";"],
        .token .punctuation " " "\x7d"],
      .token .endOfFile "\n" ""]

theorem descendants_traversed_braced :
    ∃ block, braced.WellFormed ∧ braced.Holds block ∧ block.Traversed ∧
      block.descendants.map (fun other => (other.indices, other.offset, other.ancestors.length)) =
        [([0, 0], 0, 2), ([0, 1], 1, 2), ([0, 2], 1, 2), ([0, 2, 0], 1, 3), ([0, 2, 1], 4, 3), ([0, 3], 5, 2)] ∧
      String.join (block.descendantTokens.map fun leaf => leaf.tree.leading ++ leaf.spelling) = "\x7b é; \x7d" := by
  have shape : braced.WellFormed := by simp [braced, WellFormed, AllWellFormed, Kind.isToken]
  obtain ⟨block, known⟩ : ∃ block, braced.nodeAt? [0] = some block := ⟨_, rfl⟩
  obtain ⟨tree, present, rfl⟩ := Option.map_eq_some_iff.mp known
  have held : braced.Holds ⟨braced, [0], tree⟩ := ⟨rfl, present⟩
  cases present
  have walk := descendants_traversed shape held
  exact ⟨_, shape, held, walk, by decide +kernel, (walk.text rfl).trans (by decide +kernel)⟩

end Tree

end TreeLint
