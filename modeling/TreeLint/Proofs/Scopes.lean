import TreeLint.Proofs.Inheritance

/-! Which declaration a name leads to. A lookup asks the nodes around its start one after the other, from the
inside out, and asks each for the first match among its descendants. It comes to the same as choosing among all
matches of the file: the one that shares the innermost surrounding node with the start, and of those that share
it the first in source order. -/

namespace TreeLint

namespace Node
open TreeLint.Tree

def depth (node : Node) : Nat :=
  node.path.length

theorem mem_ancestors {tree : Tree} {node : Node} (held : tree.Holds node) (around : Node) :
    around ∈ node.ancestors ↔ tree.Holds around ∧ around.path <+: node.path ∧ node.path ≠ around.path := by
  refine Holds.induct (motive := fun node => ∀ around : Node, around ∈ node.ancestors ↔
    tree.Holds around ∧ around.path <+: node.path ∧ node.path ≠ around.path) ?_ ?_ held around
  · intro around
    refine iff_of_false (by simp [asNode, ancestors, ancestorsAndSelf, trail]) ?_
    intro above
    exact above.2.2 (List.prefix_nil.mp above.2.1).symm
  · intro node standing _ child member around
    rw [ancestors_of_mem_children standing.valid member, mem_ancestorsAndSelf, (mem_children member).2.1,
      List.prefix_concat_iff]
    constructor
    · intro above
      obtain ⟨sameRoot, valid, up⟩ := above
      refine ⟨⟨sameRoot.trans standing.root_eq, valid⟩, .inr up, ?_⟩
      intro same
      have short := up.length_le
      rw [← same, List.length_append, List.length_singleton] at short
      omega
    · intro above
      obtain ⟨held, same | up, proper⟩ := above
      · exact absurd same.symm proper
      · exact ⟨held.root_eq.trans standing.root_eq.symm, held.valid, up⟩

theorem mem_ancestors_iff_mem_descendants {tree : Tree} {scope node : Node} (outer : tree.Holds scope)
    (inner : tree.Holds node) : scope ∈ node.ancestors ↔ node ∈ scope.descendants := by
  rw [mem_ancestors inner, mem_descendants outer.valid]
  constructor
  · intro above
    exact ⟨inner.root_eq.trans outer.root_eq.symm, inner.valid, above.2⟩
  · intro below
    exact ⟨outer, below.2.2⟩

/-- Walks over parts of a file keep to the order of the walk over the whole. -/
theorem descendants_sublist {tree : Tree} {scope : Node} (held : tree.Holds scope) :
    scope.descendants.Sublist tree.asNode.descendants := by
  refine Holds.induct (motive := fun scope => scope.descendants.Sublist tree.asNode.descendants) ?_ ?_ held
  · exact List.Sublist.refl _
  · intro node _ within child member
    refine List.Sublist.trans ?_ within
    rw [descendants_eq_preorder, descendants_eq_preorder, preorder_eq_flatMap node]
    apply List.Sublist.trans (List.sublist_cons_self child child.preorder)
    obtain ⟨front, back, split⟩ := List.append_of_mem member
    rw [split, List.flatMap_append, List.flatMap_cons]
    exact (List.sublist_append_left ..).trans (List.sublist_append_right ..)

/-- The scope is the innermost of the nodes that stand around both the first and the second. -/
structure Encloses (scope first second : Node) : Prop where
  around_first : scope ∈ first.ancestors
  around_second : scope ∈ second.ancestors
  innermost : ∀ other ∈ first.ancestors, other ∈ second.ancestors → other.depth ≤ scope.depth

/-- A match such that all others share only nodes further out with the start, or share the same node with it and come
later in the file. -/
structure Closest (start : Node) (wanted : Node → Prop) (found : Node) : Prop where
  inside : found ∈ start.root.asNode.descendants
  matched : wanted found
  nearest : ∃ scope, Encloses scope start found ∧
    ∀ other ∈ start.root.asNode.descendants, wanted other → other ≠ found →
      ∃ around, Encloses around start other ∧
        (around.depth < scope.depth ∨
          around = scope ∧ [found, other].Sublist start.root.asNode.descendants)

structure FindsClosest (start : Node) (wanted : Node → Prop) (result : Option Node) : Prop where
  none_iff : result = none ↔ ∀ node ∈ start.root.asNode.descendants, ¬ wanted node
  closest : ∀ found, result = some found → Closest start wanted found

theorem sublist_of_find? {nodes : List Node} {wanted : Node → Bool} {found other : Node}
    (search : nodes.find? wanted = some found) (member : other ∈ nodes) (matched : wanted other)
    (different : other ≠ found) : [found, other].Sublist nodes := by
  obtain ⟨_, before, after, split, earlier⟩ := List.find?_eq_some_iff_append.mp search
  rw [split, List.mem_append, List.mem_cons] at member
  rcases member with early | same | late
  · have missed := earlier other early
    rw [matched] at missed
    cases missed
  · exact absurd same different
  · rw [split]
    apply List.Sublist.trans _ (List.sublist_append_right ..)
    exact List.Sublist.cons_cons found (List.singleton_sublist.mpr late)

section
variable {tree : Tree} {start : Node} (held : tree.Holds start)

theorem holds_of_mem_descendants {node : Node} (below : node ∈ tree.asNode.descendants) : tree.Holds node := by
  obtain ⟨sameRoot, valid, _⟩ := (mem_descendants (holds_asNode tree).valid).mp below
  exact ⟨sameRoot, valid⟩

theorem depth_le_of_split {front back : List Node} {scope other : Node}
    (split : start.ancestors = front ++ scope :: back) (member : other ∈ start.ancestors) (later : other ∉ front) :
    other.depth ≤ scope.depth := by
  have order := (pairwise_ancestorsAndSelf start).tail
  rw [← ancestors, split] at order
  rw [split, List.mem_append, List.mem_cons] at member
  rcases member.resolve_left later with same | outer
  · exact Nat.le_of_eq (congrArg depth same)
  · exact ((List.pairwise_cons.mp (List.pairwise_append.mp order).2.1).1 other outer).length_le

include held

theorem eq_of_depth {first second : Node} (one : first ∈ start.ancestors) (two : second ∈ start.ancestors)
    (level : first.depth = second.depth) : first = second := by
  obtain ⟨firstHeld, firstUp, _⟩ := (mem_ancestors held first).mp one
  obtain ⟨secondHeld, secondUp, _⟩ := (mem_ancestors held second).mp two
  apply firstHeld.eq_of_path secondHeld
  exact (List.prefix_of_prefix_length_le firstUp secondUp (Nat.le_of_eq level)).eq_of_length level

theorem root_mem_ancestors (inside : start.path ≠ []) : tree.asNode ∈ start.ancestors :=
  (mem_ancestors held _).mpr ⟨holds_asNode tree, List.nil_prefix, inside⟩

open Classical in
theorem exists_encloses (inside : start.path ≠ []) {other : Node} (below : other ∈ tree.asNode.descendants) :
    ∃ scope, Encloses scope start other := by
  have standing := holds_of_mem_descendants below
  have shared := (mem_ancestors_iff_mem_descendants (holds_asNode tree) standing).mpr below
  have some : (start.ancestors.find? fun scope => scope ∈ other.ancestors).isSome :=
    List.find?_isSome.mpr ⟨tree.asNode, root_mem_ancestors held inside, by simpa using shared⟩
  obtain ⟨scope, search⟩ := Option.isSome_iff_exists.mp some
  obtain ⟨isShared, front, back, split, earlier⟩ := List.find?_eq_some_iff_append.mp search
  refine ⟨scope, ⟨List.mem_of_find?_eq_some search, by simpa using isShared, ?_⟩⟩
  intro around above common
  apply depth_le_of_split split above
  intro early
  simpa [common] using earlier around early

theorem searchOutwards_eq_none_iff (inside : start.path ≠ []) (wanted : Node → Bool) :
    start.searchOutwards wanted = none ↔ ∀ node ∈ tree.asNode.descendants, ¬ wanted node := by
  rw [searchOutwards, List.findSome?_eq_none_iff]
  constructor
  · intro nowhere
    simpa using nowhere tree.asNode (root_mem_ancestors held inside)
  · intro nothing scope around
    have standing := ((mem_ancestors held scope).mp around).1
    rw [List.find?_eq_none]
    intro node below
    exact nothing node ((descendants_sublist standing).subset below)

theorem closest_of_searchOutwards (inside : start.path ≠ []) {wanted : Node → Bool} {found : Node}
    (search : start.searchOutwards wanted = some found) : Closest start (fun node => wanted node) found := by
  have matched := (searchOutwards_eq_some search).2.2
  rw [searchOutwards, List.findSome?_eq_some_iff] at search
  obtain ⟨front, scope, back, split, first, earlier⟩ := search
  have around : scope ∈ start.ancestors := by rw [split]; simp
  have standing : tree.Holds scope := ((mem_ancestors held scope).mp around).1
  have within := descendants_sublist standing
  have below := List.mem_of_find?_eq_some first
  -- The nodes in front of the scope have no match below them, so none of them stands around one.
  have limit {other shared : Node} (member : other ∈ tree.asNode.descendants) (isMatch : wanted other)
      (above : shared ∈ start.ancestors) (common : shared ∈ other.ancestors) : shared.depth ≤ scope.depth := by
    apply depth_le_of_split split above
    intro early
    have outer := ((mem_ancestors held shared).mp above).1
    have beneath := (mem_ancestors_iff_mem_descendants outer (holds_of_mem_descendants member)).mp common
    exact List.find?_eq_none.mp (earlier shared early) other beneath isMatch
  have encloses : Encloses scope start found := by
    refine ⟨around, ?_, fun other above common => limit (within.subset below) matched above common⟩
    exact (mem_ancestors_iff_mem_descendants standing (holds_of_mem_descendants (within.subset below))).mpr below
  refine ⟨held.root_eq ▸ within.subset below, matched, scope, encloses, ?_⟩
  rw [held.root_eq]
  intro other member isMatch different
  obtain ⟨shared, share⟩ := exists_encloses held inside member
  refine ⟨shared, share, ?_⟩
  rcases Nat.lt_or_eq_of_le (limit member isMatch share.around_first share.around_second) with outer | level
  · exact .inl outer
  · obtain rfl := eq_of_depth held share.around_first around level
    have among := (mem_ancestors_iff_mem_descendants standing (holds_of_mem_descendants member)).mp share.around_second
    exact .inr ⟨rfl, (sublist_of_find? first among isMatch different).trans within⟩

theorem findsClosest_searchOutwards (inside : start.path ≠ []) (wanted : Node → Bool) :
    FindsClosest start (fun node => wanted node) (start.searchOutwards wanted) := by
  refine ⟨?_, fun found search => closest_of_searchOutwards held inside search⟩
  rw [held.root_eq]
  exact searchOutwards_eq_none_iff held inside wanted

end

def IsClass (name : String) (node : Node) : Prop :=
  node.kind = .classDeclaration ∧ node.className? = some name

def IsVariable (name : String) (node : Node) : Prop :=
  node.kind = .variableDeclaration ∧ node.declaredName? = some name

/-- Both lookups find the closest match, wherever they start below the root. -/
theorem lookups_closest {tree : Tree} {start : Node} (held : tree.Holds start) (inside : start.path ≠ [])
    (name : String) :
    FindsClosest start (IsClass name) (start.findClass? name) ∧
      FindsClosest start (IsVariable name) (start.findDeclaration? name) := by
  constructor
  · have finds := findsClosest_searchOutwards held inside fun node =>
      node.kind = .classDeclaration && node.className? = some name
    simp only [Bool.and_eq_true, decide_eq_true_eq] at finds
    exact finds
  · have finds := findsClosest_searchOutwards held inside fun node =>
      node.kind = .variableDeclaration && node.declaredName? = some name
    simp only [Bool.and_eq_true, decide_eq_true_eq] at finds
    exact finds

end Node

/-- Two classes and two variables of one name. Those that come first in the file stand further out than the others,
one of which is in a block beside the place of the last name. -/
def shadowed : Tree :=
  let declaration (name : String) : Tree :=
    .node .variableDeclaration
      [.token .predefinedType "\n" "int", .node .variableDeclarator [.token .identifier " " name]]
  let definition (name : String) (members : List Tree) : Tree :=
    .node .classDeclaration
      [.token .keyword "\n" "class", .token .identifier " " name,
        .node .declarationList ([.token .punctuation " " "\x7b"] ++ members ++ [.token .punctuation " " "\x7d"])]
  .node .compilationUnit
    [definition "N" [], declaration "N",
      definition "M" [.node .block [declaration "N"], definition "N" [], .token .identifier " " "N"]]

theorem Node.lookups_closest_shadowed :
    ∃ start definition declaration, shadowed.Holds start ∧ start.path = [2, 2, 3] ∧
      start.findClass? "N" = some definition ∧ definition.path = [2, 2, 2] ∧
      start.findDeclaration? "N" = some declaration ∧ declaration.path = [2, 2, 1, 0] ∧
      Node.Closest start (Node.IsClass "N") definition ∧ Node.Closest start (Node.IsVariable "N") declaration := by
  let start : Node := ⟨shadowed, [2, 2, 3], .token .identifier " " "N"⟩
  have held : shadowed.Holds start := ⟨rfl, rfl⟩
  obtain ⟨ofClass, ofVariable⟩ := Node.lookups_closest held (by decide) "N"
  have classFound : (start.findClass? "N").map Node.path = some [2, 2, 2] := by decide +kernel
  have variableFound : (start.findDeclaration? "N").map Node.path = some [2, 2, 1, 0] := by decide +kernel
  obtain ⟨definition, oneFound, oneAt⟩ := Option.map_eq_some_iff.mp classFound
  obtain ⟨declaration, twoFound, twoAt⟩ := Option.map_eq_some_iff.mp variableFound
  exact ⟨start, definition, declaration, held, rfl, oneFound, oneAt, twoFound, twoAt,
    ofClass.closest definition oneFound, ofVariable.closest declaration twoFound⟩

end TreeLint
