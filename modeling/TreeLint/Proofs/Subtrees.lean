import Mathlib.Algebra.GroupWithZero.Nat
import TreeLint.Proofs.Lookup
import TreeLint.Proofs.Trivia
import TreeLint.Tree.Walk

/-! The subtrees of a tree and what can be read off each of them. Everything a rule reads of a
declaration or a class is in its sketch, which leaves out trivia and whatever lies inside further
declarations and classes. A replaced declaration therefore shows in no sketch but its own. -/

namespace TreeLint

namespace Tree

mutual

def subtrees : Tree → List Tree
  | token kind leading text => [token kind leading text]
  | node kind children => node kind children :: subtreesOf children

def subtreesOf : List Tree → List Tree
  | [] => []
  | tree :: rest => tree.subtrees ++ subtreesOf rest

end

theorem subtreesOf_eq_flatMap (trees : List Tree) : subtreesOf trees = trees.flatMap subtrees := by
  induction trees with
  | nil => rfl
  | cons tree rest ih => rw [subtreesOf, ih, List.flatMap_cons]

theorem subtreesOf_append (first second : List Tree) :
    subtreesOf (first ++ second) = subtreesOf first ++ subtreesOf second := by
  rw [subtreesOf_eq_flatMap, subtreesOf_eq_flatMap, subtreesOf_eq_flatMap, List.flatMap_append]

theorem subtrees_eq (tree : Tree) : tree.subtrees = tree :: tree.children.flatMap subtrees := by
  cases tree with
  | token kind leading text => rfl
  | node kind children => rw [subtrees, subtreesOf_eq_flatMap]; rfl

theorem self_mem_subtrees (tree : Tree) : tree ∈ tree.subtrees := by
  rw [subtrees_eq]
  simp

theorem mem_subtrees_of_child {tree child found : Tree} (member : child ∈ tree.children)
    (inside : found ∈ child.subtrees) : found ∈ tree.subtrees := by
  rw [subtrees_eq]
  exact List.mem_cons_of_mem _ (List.mem_flatMap.mpr ⟨child, member, inside⟩)

theorem mem_subtrees {tree found : Tree} :
    found ∈ tree.subtrees ↔ ∃ path, tree.get? path = some found := by
  induction tree with
  | token kind leading text =>
    simp only [subtrees, List.mem_singleton]
    constructor
    · rintro rfl
      exact ⟨[], get?_nil _⟩
    · intro ⟨path, present⟩
      cases path with
      | nil => rw [get?_nil] at present; cases present; rfl
      | cons index path =>
        obtain ⟨child, known, _⟩ := get?_cons_eq_some.mp present
        cases known
  | node kind children ih =>
    rw [subtrees_eq, List.mem_cons, List.mem_flatMap]
    constructor
    · rintro (rfl | ⟨child, member, below⟩)
      · exact ⟨[], get?_nil _⟩
      · obtain ⟨path, present⟩ := (ih child member).mp below
        obtain ⟨index, known⟩ := List.getElem?_of_mem member
        exact ⟨index :: path, get?_cons_eq_some.mpr ⟨child, known, present⟩⟩
    · intro ⟨path, present⟩
      cases path with
      | nil => rw [get?_nil] at present; cases present; exact .inl rfl
      | cons index path =>
        obtain ⟨child, known, rest⟩ := get?_cons_eq_some.mp present
        have member : child ∈ children := List.mem_of_getElem? known
        exact .inr ⟨child, member, (ih child member).mpr ⟨path, rest⟩⟩

theorem subtrees_trans {tree middle found : Tree} (outer : middle ∈ tree.subtrees) (inner : found ∈ middle.subtrees) :
    found ∈ tree.subtrees := by
  obtain ⟨path, present⟩ := mem_subtrees.mp outer
  obtain ⟨below, inside⟩ := mem_subtrees.mp inner
  refine mem_subtrees.mpr ⟨path ++ below, ?_⟩
  rw [get?_append, present]
  exact inside

mutual

private theorem map_tree_preorderFrom (root tree : Tree) (path : List Nat) :
    (Node.preorderFrom root path tree).map Node.tree = tree.subtrees := by
  cases tree with
  | token kind leading text => rfl
  | node kind children =>
    rw [Node.preorderFrom, List.map_cons, map_tree_preorderAll root children path 0, subtrees]

private theorem map_tree_preorderAll (root : Tree) (trees : List Tree) (path : List Nat) (index : Nat) :
    (Node.preorderAll root path index trees).map Node.tree = subtreesOf trees := by
  cases trees with
  | nil => rfl
  | cons tree rest =>
    rw [Node.preorderAll, List.map_append, map_tree_preorderFrom root tree, map_tree_preorderAll root rest,
      subtreesOf]

end

theorem map_tree_selfAndDescendants (node : Node) :
    node.selfAndDescendants.map Node.tree = node.tree.subtrees := by
  rw [Node.selfAndDescendants, Node.descendants_eq_preorder, ← Node.preorderFrom_eq, map_tree_preorderFrom]

theorem map_tree_descendants (node : Node) : node.descendants.map Node.tree = subtreesOf node.tree.children := by
  have whole := map_tree_selfAndDescendants node
  rw [Node.selfAndDescendants, List.map_cons, subtrees_eq, ← subtreesOf_eq_flatMap] at whole
  exact (List.cons.inj whole).2

theorem map_tree_filter (node : Node) (holds : Tree → Bool) :
    (node.descendants.filter fun descendant => holds descendant.tree).map Node.tree =
      (subtreesOf node.tree.children).filter holds := by
  rw [← map_tree_descendants, List.filter_map]
  rfl

private theorem preorderAll_below {root : Tree} {path : List Nat} {index : Nat} {trees : List Tree} {node : Node}
    (member : node ∈ Node.preorderAll root path index trees) :
    ∃ position tree, trees[position]? = some tree ∧
      node ∈ Node.preorderFrom root (path ++ [index + position]) tree := by
  induction trees generalizing index with
  | nil => simp [Node.preorderAll] at member
  | cons tree rest ih =>
    rw [Node.preorderAll] at member
    rcases List.mem_append.mp member with first | later
    · exact ⟨0, tree, rfl, first⟩
    · obtain ⟨position, found, known, inside⟩ := ih later
      refine ⟨position + 1, found, by simpa using known, ?_⟩
      rwa [show index + (position + 1) = index + 1 + position by omega]

private theorem mem_preorderAll {root : Tree} {path : List Nat} {index position : Nat} {trees : List Tree}
    {tree : Tree} (known : trees[position]? = some tree) {node : Node}
    (member : node ∈ Node.preorderFrom root (path ++ [index + position]) tree) :
    node ∈ Node.preorderAll root path index trees := by
  induction trees generalizing index position with
  | nil => cases known
  | cons head rest ih =>
    rw [Node.preorderAll, List.mem_append]
    cases position with
    | zero => cases known; exact .inl member
    | succ position =>
      right
      apply ih (by simpa using known)
      rwa [show index + 1 + position = index + (position + 1) by omega]

private theorem mem_preorderFrom {root tree : Tree} {path : List Nat} (present : root.get? path = some tree)
    (node : Node) :
    node ∈ Node.preorderFrom root path tree ↔ node.root = root ∧ node.Valid ∧ path <+: node.path := by
  induction tree generalizing path with
  | token kind leading text =>
    rw [Node.preorderFrom, List.mem_singleton]
    constructor
    · rintro rfl
      exact ⟨rfl, present, List.prefix_rfl⟩
    · intro ⟨sameRoot, valid, below, split⟩
      cases below with
      | nil => exact Node.ext_of_path sameRoot (by simpa using split.symm) valid present
      | cons index below =>
        obtain ⟨child, known, _⟩ := get?_cons_eq_some.mp (valid.get?_below sameRoot present split)
        cases known
  | node kind children ih =>
    rw [Node.preorderFrom, List.mem_cons]
    constructor
    · rintro (rfl | later)
      · exact ⟨rfl, present, List.prefix_rfl⟩
      · obtain ⟨position, child, known, inside⟩ := preorderAll_below later
        rw [Nat.zero_add] at inside
        obtain ⟨sameRoot, valid, up⟩ := (ih child (List.mem_of_getElem? known) (get?_concat present known)).mp inside
        exact ⟨sameRoot, valid, (List.prefix_append path [position]).trans up⟩
    · intro ⟨sameRoot, valid, below, split⟩
      cases below with
      | nil => exact .inl (Node.ext_of_path sameRoot (by simpa using split.symm) valid present)
      | cons index below =>
        right
        obtain ⟨child, known, _⟩ := get?_cons_eq_some.mp (valid.get?_below sameRoot present split)
        apply mem_preorderAll known
        rw [Nat.zero_add]
        refine (ih child (List.mem_of_getElem? known) (get?_concat present known)).mpr ⟨sameRoot, valid, below, ?_⟩
        rw [← split, List.append_assoc, List.singleton_append]

/-- A walk from the root visits every place of the tree. -/
theorem mem_selfAndDescendants (tree : Tree) (node : Node) :
    node ∈ tree.asNode.selfAndDescendants ↔ node.root = tree ∧ node.Valid := by
  have everywhere : node ∈ Node.preorderFrom tree [] tree ↔ node.root = tree ∧ node.Valid := by
    rw [mem_preorderFrom (get?_nil tree)]
    simp
  rw [Node.selfAndDescendants, Node.descendants_eq_preorder, ← Node.preorderFrom_eq]
  exact everywhere

private theorem ordered_preorderAll {root : Tree} {path : List Nat} {trees : List Tree} (index : Nat)
    (present : ∀ position tree, trees[position]? = some tree → root.get? (path ++ [index + position]) = some tree)
    (each : ∀ position tree, trees[position]? = some tree →
      (Node.preorderFrom root (path ++ [index + position]) tree).Pairwise fun first second => first.path < second.path) :
    (Node.preorderAll root path index trees).Pairwise fun first second => first.path < second.path := by
  induction trees generalizing index with
  | nil => simp [Node.preorderAll]
  | cons tree rest ih =>
    have shift (position : Nat) : index + 1 + position = index + (position + 1) := by omega
    rw [Node.preorderAll, List.pairwise_append]
    refine ⟨each 0 tree rfl, ih (index + 1) ?_ ?_, ?_⟩
    · intro position found known
      rw [shift]
      exact present (position + 1) found (by simpa using known)
    · intro position found known
      rw [shift]
      exact each (position + 1) found (by simpa using known)
    · intro first firstMember second secondMember
      obtain ⟨position, found, known, inside⟩ := preorderAll_below secondMember
      rw [shift] at inside
      obtain ⟨left, firstPath⟩ := ((mem_preorderFrom (present 0 tree rfl) first).mp firstMember).2.2
      obtain ⟨right, secondPath⟩ :=
        ((mem_preorderFrom (present (position + 1) found (by simpa using known)) second).mp inside).2.2
      rw [← firstPath, ← secondPath, List.append_assoc, List.append_assoc]
      exact List.append_left_lt (List.cons_lt_cons_iff.mpr (.inl (by omega)))

private theorem ordered_preorderFrom {root tree : Tree} {path : List Nat} (present : root.get? path = some tree) :
    (Node.preorderFrom root path tree).Pairwise fun first second => first.path < second.path := by
  induction tree generalizing path with
  | token kind leading text => simp [Node.preorderFrom]
  | node kind children ih =>
    have childPresent (index : Nat) (child : Tree) (known : children[index]? = some child) :
        root.get? (path ++ [0 + index]) = some child := by
      rw [Nat.zero_add]
      exact get?_concat present known
    rw [Node.preorderFrom, List.pairwise_cons]
    refine ⟨?_, ordered_preorderAll 0 childPresent fun index child known =>
      ih child (List.mem_of_getElem? known) (childPresent index child known)⟩
    intro second member
    obtain ⟨position, child, known, inside⟩ := preorderAll_below member
    obtain ⟨below, split⟩ := ((mem_preorderFrom (childPresent position child known) second).mp inside).2.2
    have further : path ++ [] < path ++ [0 + position] ++ below := by
      rw [List.append_assoc]
      exact List.append_left_lt (List.nil_lt_cons _ _)
    rwa [List.append_nil, split] at further

/-- The descendants of a node are the places strictly below it. -/
theorem mem_descendants {scope node : Node} (valid : scope.Valid) :
    node ∈ scope.descendants ↔
      node.root = scope.root ∧ node.Valid ∧ scope.path <+: node.path ∧ node.path ≠ scope.path := by
  have inside := mem_preorderFrom valid node
  have order := ordered_preorderFrom valid
  rw [Node.preorderFrom_eq, ← Node.descendants_eq_preorder] at inside order
  constructor
  · intro member
    obtain ⟨sameRoot, found, below⟩ := inside.mp (List.mem_cons_of_mem _ member)
    have later := (List.pairwise_cons.mp order).1 node member
    exact ⟨sameRoot, found, below, fun same => List.lt_irrefl _ (same ▸ later)⟩
  · intro ⟨sameRoot, found, below, proper⟩
    rcases List.mem_cons.mp (inside.mpr ⟨sameRoot, found, below⟩) with rfl | later
    · exact absurd rfl proper
    · exact later

/-- A walk visits places in the order of their paths. -/
theorem ordered_selfAndDescendants (tree : Tree) :
    tree.asNode.selfAndDescendants.Pairwise fun first second => first.path < second.path := by
  rw [Node.selfAndDescendants, Node.descendants_eq_preorder, ← Node.preorderFrom_eq]
  exact ordered_preorderFrom (get?_nil tree)

/-- A walk visits a place before all places inside it. -/
theorem pairwise_selfAndDescendants (tree : Tree) :
    tree.asNode.selfAndDescendants.Pairwise fun first second => ¬ second.path <+: first.path :=
  (ordered_selfAndDescendants tree).imp fun order up => up.le order

theorem pairwise_descendants {scope : Node} (valid : scope.Valid) :
    scope.descendants.Pairwise fun first second => ¬ second.path <+: first.path := by
  have whole := ordered_preorderFrom valid
  rw [Node.preorderFrom_eq, ← Node.descendants_eq_preorder] at whole
  exact (List.pairwise_cons.mp whole).2.imp fun order up => up.le order

end Tree

def Kind.isLandmark : Kind → Bool
  | .variableDeclaration | .classDeclaration => true
  | _ => false

namespace Tree

mutual

/-- A tree as it shows in the sketch of a tree around it: without trivia, and of a landmark nothing
but that it is there. -/
def glimpse : Tree → Tree
  | token kind _ text => token kind "" text
  | node kind children => if kind.isLandmark then node kind [] else node kind (glimpses children)

def glimpses : List Tree → List Tree
  | [] => []
  | tree :: rest => tree.glimpse :: glimpses rest

end

/-- What a rule or a fix reads of a tree. -/
def sketch : Tree → Tree
  | token kind _ text => token kind "" text
  | node kind children => node kind (glimpses children)

theorem glimpses_eq_map (trees : List Tree) : glimpses trees = trees.map glimpse := by
  induction trees with
  | nil => rfl
  | cons tree rest ih => rw [glimpses, ih, List.map_cons]

@[simp] theorem kind_glimpse (tree : Tree) : tree.glimpse.kind = tree.kind := by
  cases tree with
  | token kind leading text => rfl
  | node kind children => rw [glimpse]; split <;> rfl

@[simp] theorem spelling_glimpse (tree : Tree) : tree.glimpse.spelling = tree.spelling := by
  cases tree with
  | token kind leading text => rfl
  | node kind children => rw [glimpse]; split <;> rfl

@[simp] theorem kind_sketch (tree : Tree) : tree.sketch.kind = tree.kind := by
  cases tree <;> rfl

@[simp] theorem children_sketch (tree : Tree) : tree.sketch.children = tree.children.map glimpse := by
  cases tree with
  | token kind leading text => rfl
  | node kind children => exact glimpses_eq_map children

theorem glimpse_eq_sketch {tree : Tree} (plain : tree.kind.isLandmark = false) : tree.glimpse = tree.sketch := by
  cases tree with
  | token kind leading text => rfl
  | node kind children =>
    simp only [kind_node] at plain
    simp [glimpse, sketch, plain]

structure Replaces (replacement found : Tree) : Prop where
  kind_eq : replacement.kind = found.kind
  landmark : found.kind.isLandmark = true
  shape : replacement.WellFormed

private theorem Replaces.inner {replacement found : Tree} (fits : Replaces replacement found) :
    ∃ children, replacement = node found.kind children := by
  cases replacement with
  | token kind leading text =>
    have landmark := fits.landmark
    have shape := fits.shape
    rw [← fits.kind_eq, kind_token] at landmark
    simp only [WellFormed] at shape
    cases kind <;> simp_all [Kind.isLandmark, Kind.isToken]
  | node kind children =>
    have same := fits.kind_eq
    simp only [kind_node] at same
    exact ⟨children, by rw [same]⟩

private theorem glimpse_landmark {kind : Kind} (landmark : kind.isLandmark = true) (children : List Tree) :
    (node kind children).glimpse = node kind [] := by
  simp [glimpse, landmark]

private theorem map_set_same {trees : List Tree} {index : Nat} {child changed : Tree} (read : Tree → Tree)
    (known : trees[index]? = some child) (same : read changed = read child) :
    (trees.set index changed).map read = trees.map read := by
  conv => rhs; rw [split_at known]
  rw [set_split known]
  simp [same]

theorem glimpse_replaceAt {tree found replacement : Tree} {path : List Nat} (present : tree.get? path = some found)
    (shape : found.WellFormed) (fits : Replaces replacement found) :
    (tree.replaceAt path replacement).glimpse = tree.glimpse := by
  induction path generalizing tree with
  | nil =>
    rw [get?_nil] at present
    cases present
    obtain ⟨children, rfl⟩ := fits.inner
    obtain ⟨old, same⟩ := Replaces.inner ⟨rfl, fits.landmark, shape⟩
    rw [replaceAt_nil, glimpse_landmark fits.landmark, same, kind_node, glimpse_landmark fits.landmark]
  | cons index path ih =>
    obtain ⟨child, known, rest⟩ := get?_cons_eq_some.mp present
    cases tree with
    | token kind leading text => cases known
    | node kind children =>
      simp only [children_node] at known
      rw [replaceAt_cons known]
      simp only [kind_node, children_node, glimpse, glimpses_eq_map, map_set_same glimpse known (ih rest)]

/-- A replaced landmark does not show in the sketch of what is around it. -/
theorem sketch_replaceAt {tree found replacement : Tree} {path : List Nat} (inside : path ≠ [])
    (present : tree.get? path = some found) (shape : found.WellFormed) (fits : Replaces replacement found) :
    (tree.replaceAt path replacement).sketch = tree.sketch := by
  cases path with
  | nil => exact absurd rfl inside
  | cons index path =>
    obtain ⟨child, known, rest⟩ := get?_cons_eq_some.mp present
    cases tree with
    | token kind leading text => cases known
    | node kind children =>
      simp only [children_node] at known
      rw [replaceAt_cons known]
      simp only [kind_node, children_node, sketch, glimpses_eq_map,
        map_set_same glimpse known (glimpse_replaceAt rest shape fits)]

theorem map_withLeadingFirst {trees : List Tree} {trivia : String} (read : Tree → β)
    (same : ∀ tree ∈ trees, read (tree.withLeading trivia) = read tree) :
    (withLeadingFirst trivia trees).map read = trees.map read := by
  induction trees with
  | nil => rfl
  | cons tree rest ih =>
    rw [withLeadingFirst]
    split
    · rw [List.map_cons, same tree (by simp), List.map_cons]
    · rw [List.map_cons, ih (fun other member => same other (by simp [member])), List.map_cons]

theorem glimpse_withLeading {tree : Tree} (shape : tree.WellFormed) (trivia : String) :
    (tree.withLeading trivia).glimpse = tree.glimpse := by
  induction tree with
  | token kind leading text =>
    simp only [WellFormed] at shape
    simp [withLeading, shape, glimpse]
  | node kind children ih =>
    obtain ⟨inner, below⟩ := (wellFormed_node kind children).mp shape
    have same := map_withLeadingFirst glimpse (fun child member => ih child member (below child member))
    simp only [withLeading, inner, Bool.false_eq_true, if_false, glimpse, glimpses_eq_map, same]

theorem sketch_withLeading {tree : Tree} (shape : tree.WellFormed) (trivia : String) :
    (tree.withLeading trivia).sketch = tree.sketch := by
  cases tree with
  | token kind leading text =>
    simp only [WellFormed] at shape
    simp [withLeading, shape, sketch]
  | node kind children =>
    obtain ⟨inner, below⟩ := (wellFormed_node kind children).mp shape
    have same := map_withLeadingFirst glimpse
      (fun child member => glimpse_withLeading (below child member) trivia)
    simp only [withLeading, inner, Bool.false_eq_true, if_false, sketch, glimpses_eq_map, same]

theorem kind_withLeading {tree : Tree} (shape : tree.WellFormed) (trivia : String) :
    (tree.withLeading trivia).kind = tree.kind := by
  rw [← kind_sketch, sketch_withLeading shape, kind_sketch]

def tally (weigh : Tree → Nat) (tree : Tree) : Nat :=
  (tree.subtrees.map weigh).sum

def Sketched (weigh : Tree → Nat) : Prop :=
  ∀ tree, weigh tree.sketch = weigh tree

theorem sum_flatMap (weigh : Tree → Nat) (trees : List Tree) :
    ((trees.flatMap subtrees).map weigh).sum = (trees.map (tally weigh)).sum := by
  induction trees with
  | nil => rfl
  | cons tree rest ih =>
    rw [List.flatMap_cons, List.map_append, List.sum_append_nat, ih, List.map_cons, List.sum_cons]
    rfl

theorem tally_eq (weigh : Tree → Nat) (tree : Tree) :
    tally weigh tree = weigh tree + (tree.children.map (tally weigh)).sum := by
  rw [tally, subtrees_eq, List.map_cons, List.sum_cons, sum_flatMap]

theorem tally_eq_zero {weigh : Tree → Nat} {tree : Tree} :
    tally weigh tree = 0 ↔ ∀ found ∈ tree.subtrees, weigh found = 0 := by
  rw [tally, List.sum_eq_zero_iff_forall_eq_nat, List.forall_mem_map]

theorem tally_withLeading {weigh : Tree → Nat} (sketched : Sketched weigh) {tree : Tree} (shape : tree.WellFormed)
    (trivia : String) : tally weigh (tree.withLeading trivia) = tally weigh tree := by
  have here {tree : Tree} (shape : tree.WellFormed) : weigh (tree.withLeading trivia) = weigh tree := by
    rw [← sketched, sketch_withLeading shape, sketched]
  induction tree with
  | token kind leading text =>
    have same := here shape
    simp only [WellFormed] at shape
    simp only [withLeading, shape, if_true] at same ⊢
    rw [tally_eq, tally_eq, same]
    rfl
  | node kind children ih =>
    have same := here shape
    obtain ⟨inner, below⟩ := (wellFormed_node kind children).mp shape
    simp only [withLeading, inner, Bool.false_eq_true, if_false] at same ⊢
    rw [tally_eq, tally_eq, same, children_node, children_node,
      map_withLeadingFirst (tally weigh) (fun child member => ih child member (below child member))]

/-- Replacing a landmark changes a tally by what it weighs itself. -/
theorem tally_replaceAt {weigh : Tree → Nat} (sketched : Sketched weigh) {tree found replacement : Tree}
    {path : List Nat} (present : tree.get? path = some found) (shape : found.WellFormed)
    (fits : Replaces replacement found) :
    tally weigh (tree.replaceAt path replacement) + tally weigh found =
      tally weigh tree + tally weigh replacement := by
  induction path generalizing tree with
  | nil =>
    rw [get?_nil] at present
    cases present
    rw [replaceAt_nil, Nat.add_comm]
  | cons index path ih =>
    obtain ⟨child, known, rest⟩ := get?_cons_eq_some.mp present
    have below := ih rest
    have here : weigh (tree.replaceAt (index :: path) replacement) = weigh tree := by
      rw [← sketched, sketch_replaceAt (by simp) present shape fits, sketched]
    have old : (tree.children.map (tally weigh)).sum =
        ((tree.children.take index).map (tally weigh)).sum + (tally weigh child +
          ((tree.children.drop (index + 1)).map (tally weigh)).sum) := by
      conv => lhs; rw [split_at known]
      rw [List.map_append, List.sum_append_nat, List.map_cons, List.sum_cons]
    rw [tally_eq, tally_eq weigh tree, here, children_replaceAt_cons known, set_split known, old, List.map_append,
      List.sum_append_nat, List.map_cons, List.sum_cons]
    omega

end Tree

end TreeLint
