import Mathlib.Data.List.Forall2
import TreeLint.Proofs.Comments
import TreeLint.Proofs.Lossless
import TreeLint.Proofs.RenamedText

/-! The shape of lowered trees. Each leaf of the grammar becomes one token, in order, which reads the text on from where
the leaves before it have come. Nothing that has no token becomes a node, and the entries of a list of base types stand
in its references, one by one. -/

namespace TreeLint

theorem Kind.ne_of_isToken {kind other : Kind} (isToken : kind.isToken = true) (inner : other.isToken = false) :
    kind ≠ other := by
  rintro rfl
  rw [isToken] at inner
  cases inner

namespace Tree

theorem filter_isToken_subtrees {tree : Tree} (shape : tree.WellFormed) :
    tree.subtrees.filter Tree.isToken = tree.tokens := by
  induction tree with
  | token kind leading text =>
    have isToken : kind.isToken = true := shape
    simp [subtrees, Tree.tokens, Tree.isToken, isToken]
  | node kind children ih =>
    obtain ⟨inner, below⟩ := (wellFormed_node kind children).mp shape
    rw [subtrees_eq, List.filter_cons_of_neg (by simp [Tree.isToken, inner]), tokens_node inner, tokensOf_eq_flatMap,
      List.filter_flatMap]
    exact List.flatMap_congr fun child member => ih child member (below child member)

theorem map_tree_descendantTokens {node : Node} (shape : node.tree.WellFormed) (inner : node.tree.isToken = false) :
    node.descendantTokens.map Node.tree = node.tree.tokens := by
  rw [← filter_isToken_subtrees shape, subtrees_eq, ← subtreesOf_eq_flatMap, List.filter_cons_of_neg (by simp [inner])]
  exact map_tree_filter node isToken

end Tree

namespace Concrete
open TreeLint.Tree TreeLint.Grammar

def start : Concrete → Nat
  | .node _ _ start _ _ => start

def stop : Concrete → Nat
  | .node _ _ _ stop _ => stop

mutual

def nodes : Concrete → List Concrete
  | .node symbol named start stop children => .node symbol named start stop children :: nodesOf children

def nodesOf : List Concrete → List Concrete
  | [] => []
  | tree :: rest => tree.nodes ++ nodesOf rest

end

def isLeaf (concrete : Concrete) : Bool :=
  concrete.children.isEmpty

def leaves (concrete : Concrete) : List Concrete :=
  concrete.nodes.filter isLeaf

def leavesOf (trees : List Concrete) : List Concrete :=
  (nodesOf trees).filter isLeaf

theorem leaves_leaf (symbol : String) (named : Bool) (start stop : Nat) :
    leaves (.node symbol named start stop []) = [.node symbol named start stop []] :=
  rfl

theorem leaves_inner (symbol : String) (named : Bool) (start stop : Nat) (first : Concrete) (rest : List Concrete) :
    leaves (.node symbol named start stop (first :: rest)) = leavesOf (first :: rest) := by
  rw [leaves, nodes, List.filter_cons_of_neg (by simp [isLeaf, children]), leavesOf]

theorem leavesOf_cons (tree : Concrete) (rest : List Concrete) :
    leavesOf (tree :: rest) = tree.leaves ++ leavesOf rest := by
  rw [leavesOf, nodesOf, List.filter_append, leaves, leavesOf]

mutual

theorem leafOffsets_eq (concrete : Concrete) :
    concrete.leafOffsets = concrete.leaves.flatMap fun leaf => [leaf.start, leaf.stop] := by
  match concrete with
  | .node symbol named start stop [] => rfl
  | .node symbol named start stop (first :: rest) => rw [leafOffsets, leafOffsetsOf_eq (first :: rest), leaves_inner]

theorem leafOffsetsOf_eq (trees : List Concrete) :
    leafOffsetsOf trees = (leavesOf trees).flatMap fun leaf => [leaf.start, leaf.stop] := by
  match trees with
  | [] => rfl
  | tree :: rest => rw [leafOffsetsOf, leafOffsets_eq tree, leafOffsetsOf_eq rest, leavesOf_cons, List.flatMap_append]

end

/-- How far a text has been read when leaves have been read from a cursor on. -/
def readUpTo (cursor : Nat) (leaves : List Concrete) : Nat :=
  leaves.foldl (fun cursor leaf => max leaf.stop (max leaf.start cursor)) cursor

/-- The kind of the token of a leaf. In a construct of one token it goes by the spelling alone. -/
def tokenKind (symbol : String) (named : Bool) (text : String) : Kind :=
  if named && constructKind symbol ≠ .unknown then spellingKind text else leafKind symbol named text

/-- The token reads on from the cursor: what stands in front of the leaf as trivia, and as text what is left of the
leaf. -/
inductive ReadFrom (source : String) (cursor : Nat) : Concrete → Tree → Prop where
  | leaf {symbol leading text : String} {named : Bool} {start stop : Nat} :
    Text.slice? source cursor (max start cursor) = some leading →
    Text.slice? source (max start cursor) (max stop (max start cursor)) = some text →
    ReadFrom source cursor (.node symbol named start stop []) (.token (tokenKind symbol named text) leading text)

structure ReadInOrder (source : String) (cursor : Nat) (leaves : List Concrete) (tokens : List Tree) : Prop where
  length_eq : tokens.length = leaves.length
  each : ∀ index leaf token, leaves[index]? = some leaf → tokens[index]? = some token →
    ReadFrom source (readUpTo cursor (leaves.take index)) leaf token

theorem ReadInOrder.append {source : String} {cursor : Nat} {first second : List Concrete} {tokens others : List Tree}
    (one : ReadInOrder source cursor first tokens) (two : ReadInOrder source (readUpTo cursor first) second others) :
    ReadInOrder source cursor (first ++ second) (tokens ++ others) := by
  refine ⟨by rw [List.length_append, List.length_append, one.length_eq, two.length_eq], ?_⟩
  intro index leaf token leafKnown tokenKnown
  have same := one.length_eq
  rcases Nat.lt_or_ge index first.length with early | late
  · rw [List.getElem?_append_left early] at leafKnown
    rw [List.getElem?_append_left (by omega)] at tokenKnown
    rw [List.take_append_of_le_length (by omega)]
    exact one.each index leaf token leafKnown tokenKnown
  · rw [List.getElem?_append_right late] at leafKnown
    rw [List.getElem?_append_right (by omega), same] at tokenKnown
    rw [List.take_append, List.take_of_length_le late, readUpTo, List.foldl_append]
    exact two.each _ leaf token leafKnown tokenKnown

theorem tokens_lowerLeaf (source symbol : String) (named : Bool) (start stop cursor : Nat) :
    (lowerLeaf source symbol named start stop cursor).1.tokens =
      let text := (Text.slice? source (max start cursor) (max stop (max start cursor))).getD ""
      [.token (tokenKind symbol named text) ((Text.slice? source cursor (max start cursor)).getD "") text] := by
  simp only [lowerLeaf, tokenKind]
  split
  · simp [Tree.tokens, tokensOf, constructKind_isToken, (spellingKind_isLeafKind _).1]
  · simp [Tree.tokens, (leafKind_isLeafKind _ _ _).1]

theorem tokensOf_wrapBase (inBaseList : Bool) (child : Concrete) (lowered : List Tree) :
    tokensOf (wrapBase inBaseList child lowered) = tokensOf lowered := by
  unfold wrapBase
  split
  · simp [tokensOf, Tree.tokens, Kind.isToken]
  · rfl

theorem boundary_readUpTo {source : String} {cursor : Nat} {leaves : List Concrete} (here : Text.Boundary source cursor)
    (cuts : ∀ leaf ∈ leaves, Text.Boundary source leaf.start ∧ Text.Boundary source leaf.stop) :
    Text.Boundary source (readUpTo cursor leaves) := by
  induction leaves generalizing cursor with
  | nil => exact here
  | cons leaf rest ih =>
    obtain ⟨⟨opens, closes⟩, later⟩ := List.forall_mem_cons.mp cuts
    exact ih (Text.boundary_max closes (Text.boundary_max opens here)) later

theorem readInOrder_lowerLeaf {source : String} {start stop cursor : Nat} (symbol : String) (named : Bool)
    (here : Text.Boundary source cursor) (opens : Text.Boundary source start) (closes : Text.Boundary source stop) :
    ReadInOrder source cursor [.node symbol named start stop []]
      (lowerLeaf source symbol named start stop cursor).1.tokens := by
  obtain ⟨leading, front⟩ := Text.exists_slice here (Text.boundary_max opens here) (Nat.le_max_right _ _)
  obtain ⟨text, back⟩ := Text.exists_slice (Text.boundary_max opens here)
    (Text.boundary_max closes (Text.boundary_max opens here)) (Nat.le_max_right _ _)
  rw [tokens_lowerLeaf, front, back]
  refine ⟨rfl, ?_⟩
  intro index leaf token leafKnown tokenKnown
  cases index with
  | zero =>
    cases leafKnown
    cases tokenKnown
    exact .leaf front back
  | succ index => cases leafKnown

mutual

theorem readInOrder_lower {source : String} {concrete : Concrete} {cursor : Nat} (here : Text.Boundary source cursor)
    (cuts : ∀ leaf ∈ concrete.leaves, Text.Boundary source leaf.start ∧ Text.Boundary source leaf.stop) :
    ReadInOrder source cursor concrete.leaves (tokensOf (lower source concrete cursor).1) ∧
      (lower source concrete cursor).2 = readUpTo cursor concrete.leaves := by
  match concrete with
  | .node symbol named start stop [] =>
    obtain ⟨opens, closes⟩ := cuts _ (List.mem_singleton_self _)
    rw [leaves_leaf, lower]
    simp only [tokensOf, List.append_nil]
    exact ⟨readInOrder_lowerLeaf symbol named here opens closes, cursor_lowerLeaf source symbol named start stop cursor⟩
  | .node symbol named start stop (first :: rest) =>
    rw [leaves_inner] at cuts ⊢
    have all := readInOrder_lowerAll (isBaseList symbol) here cuts
    rw [lower]
    simp only
    split
    · exact all
    · simpa [tokensOf, Tree.tokens, constructKind_isToken] using all

theorem readInOrder_lowerAll {source : String} {trees : List Concrete} {cursor : Nat} (inBaseList : Bool)
    (here : Text.Boundary source cursor)
    (cuts : ∀ leaf ∈ leavesOf trees, Text.Boundary source leaf.start ∧ Text.Boundary source leaf.stop) :
    ReadInOrder source cursor (leavesOf trees) (tokensOf (lowerAll source inBaseList trees cursor).1) ∧
      (lowerAll source inBaseList trees cursor).2 = readUpTo cursor (leavesOf trees) := by
  match trees with
  | [] =>
    refine ⟨⟨rfl, ?_⟩, rfl⟩
    intro index leaf token known
    cases known
  | tree :: others =>
    rw [leavesOf_cons, List.forall_mem_append] at cuts
    obtain ⟨first, cursorFirst⟩ := readInOrder_lower here cuts.1
    obtain ⟨second, cursorSecond⟩ := readInOrder_lowerAll inBaseList (boundary_readUpTo here cuts.1) cuts.2
    simp only [lowerAll, leavesOf_cons, tokensOf_append, tokensOf_wrapBase, cursorFirst]
    refine ⟨first.append second, ?_⟩
    rw [cursorSecond, readUpTo, readUpTo, readUpTo, List.foldl_append]

end

def Filled (trees : List Tree) : Prop :=
  ∀ found ∈ subtreesOf trees, found.tokens ≠ []

theorem Filled.append {first second : List Tree} (one : Filled first) (two : Filled second) :
    Filled (first ++ second) := by
  rw [Filled, subtreesOf_append, List.forall_mem_append]
  exact ⟨one, two⟩

theorem Filled.node {kind : Kind} {trees : List Tree} (inner : kind.isToken = false) (nonempty : tokensOf trees ≠ [])
    (filled : Filled trees) : Filled [.node kind trees] := by
  rw [Filled, subtreesOf, subtrees, subtreesOf, List.append_nil, List.forall_mem_cons, tokens_node inner]
  exact ⟨nonempty, filled⟩

theorem Filled.token {kind : Kind} (isToken : kind.isToken = true) (leading text : String) :
    Filled [.token kind leading text] := by
  simp [Filled, subtreesOf, subtrees, Tree.tokens, isToken]

theorem filled_lowerLeaf (source symbol : String) (named : Bool) (start stop cursor : Nat) :
    Filled [(lowerLeaf source symbol named start stop cursor).1] := by
  simp only [lowerLeaf]
  split
  · have leaf := (spellingKind_isLeafKind
      ((Text.slice? source (max start cursor) (max stop (max start cursor))).getD "")).1
    exact (Filled.token leaf _ _).node (constructKind_isToken symbol) (by simp [tokensOf, Tree.tokens, leaf])
  · exact .token (leafKind_isLeafKind symbol named _).1 _ _

mutual

theorem filled_lower (source : String) (concrete : Concrete) (cursor : Nat) :
    Filled (lower source concrete cursor).1 ∧ tokensOf (lower source concrete cursor).1 ≠ [] := by
  match concrete with
  | .node symbol named start stop [] =>
    rw [lower]
    refine ⟨filled_lowerLeaf source symbol named start stop cursor, ?_⟩
    simp [tokensOf, tokens_lowerLeaf]
  | .node symbol named start stop (first :: rest) =>
    obtain ⟨filled, held⟩ := filled_lowerAll source (isBaseList symbol) (first :: rest) cursor
    have nonempty := held (List.cons_ne_nil _ _)
    rw [lower]
    simp only
    split
    · exact ⟨filled, nonempty⟩
    · exact ⟨filled.node (constructKind_isToken symbol) nonempty,
        by simpa [tokensOf, Tree.tokens, constructKind_isToken] using nonempty⟩

theorem filled_lowerAll (source : String) (inBaseList : Bool) (trees : List Concrete) (cursor : Nat) :
    Filled (lowerAll source inBaseList trees cursor).1 ∧
      (trees ≠ [] → tokensOf (lowerAll source inBaseList trees cursor).1 ≠ []) := by
  match trees with
  | [] => exact ⟨fun found member => absurd member List.not_mem_nil, fun none => absurd rfl none⟩
  | tree :: others =>
    obtain ⟨first, nonempty⟩ := filled_lower source tree cursor
    have second := (filled_lowerAll source inBaseList others (lower source tree cursor).2).1
    simp only [lowerAll]
    constructor
    · apply Filled.append _ second
      unfold wrapBase
      split
      · exact first.node rfl nonempty
      · exact first
    · intro _
      simp [tokensOf_append, tokensOf_wrapBase, nonempty]

end

/-- A child that stands for a base type in a list of them. -/
def isEntry (child : Concrete) : Bool :=
  child.named && child.symbol ≠ "comment"

/-- What becomes a list of base types. Without children only a named symbol does. -/
def isBases (concrete : Concrete) : Bool :=
  isBaseList concrete.symbol && (concrete.named || !concrete.isLeaf)

def isReference (tree : Tree) : Bool :=
  tree.kind = .baseTypeReference

def RefersTo (source : String) (entry : Concrete) (reference : Tree) : Prop :=
  ∃ cursor, reference = .node .baseTypeReference (lower source entry cursor).1

/-- The list is what the concrete list has become, with one reference for each entry among its children. -/
structure Lists (source : String) (bases : Concrete) (list : Tree) : Prop where
  lowered : ∃ cursor, (lower source bases cursor).1 = [list]
  references : bases.isLeaf = false →
    List.Forall₂ (RefersTo source) (bases.children.filter isEntry) (list.children.filter isReference)

theorem wrapBase_of_entry {child : Concrete} (entry : child.isEntry = true) (lowered : List Tree) :
    wrapBase true child lowered = [.node .baseTypeReference lowered] :=
  if_pos (by simpa [isEntry] using entry)

theorem wrapBase_of_other {child : Concrete} (other : child.isEntry = false) (inBaseList : Bool)
    (lowered : List Tree) : wrapBase inBaseList child lowered = lowered :=
  if_neg (by
    rw [isEntry] at other
    rw [Bool.and_assoc, other, Bool.and_false]
    exact Bool.false_ne_true)

theorem constructKind_ne_reference (symbol : String) : constructKind symbol ≠ .baseTypeReference :=
  constructKind_of_table (P := fun kind => kind ≠ .baseTypeReference) (by decide) (by decide) symbol

theorem isBaseList_of_transparent {symbol : String} (transparent : isTransparent symbol = true) :
    isBaseList symbol = false := by
  have spelled : symbol = "equals_value_clause" := by simpa [isTransparent] using transparent
  rw [spelled]
  decide

theorem isReference_lowerLeaf (source symbol : String) (named : Bool) (start stop cursor : Nat) :
    isReference (lowerLeaf source symbol named start stop cursor).1 = false := by
  simp only [lowerLeaf]
  split
  · simp [isReference, constructKind_ne_reference]
  · exact decide_eq_false (Kind.ne_of_isToken (leafKind_isLeafKind symbol named _).1 rfl)

mutual

/-- References stand in lists of base types only, and nowhere else in front of other trees. -/
theorem unreferenced_lower (source : String) (concrete : Concrete) (cursor : Nat) :
    ∀ tree ∈ (lower source concrete cursor).1, isReference tree = false := by
  match concrete with
  | .node symbol named start stop [] =>
    rw [lower]
    exact List.forall_mem_singleton.mpr (isReference_lowerLeaf source symbol named start stop cursor)
  | .node symbol named start stop (first :: rest) =>
    rw [lower]
    simp only
    split
    next transparent =>
      rw [isBaseList_of_transparent transparent]
      exact unreferenced_lowerAll source (first :: rest) cursor
    next => exact List.forall_mem_singleton.mpr (decide_eq_false (constructKind_ne_reference symbol))

theorem unreferenced_lowerAll (source : String) (trees : List Concrete) (cursor : Nat) :
    ∀ tree ∈ (lowerAll source false trees cursor).1, isReference tree = false := by
  match trees with
  | [] => exact fun tree member => absurd member List.not_mem_nil
  | tree :: others =>
    simp only [lowerAll, wrapBase, Bool.false_and, Bool.false_eq_true, if_false, List.forall_mem_append]
    exact ⟨unreferenced_lower source tree cursor, unreferenced_lowerAll source others _⟩

end

theorem references_lowerAll (source : String) (trees : List Concrete) (cursor : Nat) :
    List.Forall₂ (RefersTo source) (trees.filter isEntry)
      ((lowerAll source true trees cursor).1.filter isReference) := by
  induction trees generalizing cursor with
  | nil => exact .nil
  | cons tree others ih =>
    simp only [lowerAll, List.filter_append]
    cases entry : tree.isEntry with
    | true =>
      rw [List.filter_cons_of_pos entry, wrapBase_of_entry entry]
      exact .cons ⟨cursor, rfl⟩ (ih _)
    | false =>
      have none : (lower source tree cursor).1.filter isReference = [] :=
        List.filter_eq_nil_iff.mpr (by simpa using unreferenced_lower source tree cursor)
      rw [List.filter_cons_of_neg (by simp [entry]), wrapBase_of_other entry, none]
      exact ih _

def isList (tree : Tree) : Bool :=
  tree.kind = .baseList

theorem isList_node (symbol : String) (children : List Tree) :
    isList (.node (constructKind symbol) children) = isBaseList symbol :=
  rfl

theorem isBases_inner (symbol : String) (named : Bool) (start stop : Nat) (first : Concrete) (rest : List Concrete) :
    isBases (.node symbol named start stop (first :: rest)) = isBaseList symbol := by
  simp [isBases, isLeaf, children, Concrete.symbol]

theorem filter_isList_lowerLeaf (source symbol : String) (named : Bool) (start stop cursor : Nat) :
    (subtreesOf [(lowerLeaf source symbol named start stop cursor).1]).filter isList =
      if isBases (.node symbol named start stop []) then [(lowerLeaf source symbol named start stop cursor).1]
      else [] := by
  have bases : isBases (.node symbol named start stop []) = (decide (constructKind symbol = .baseList) && named) := by
    change (isBaseList symbol && (named || false)) = _
    rw [Bool.or_false]
    rfl
  rw [bases]
  simp only [lowerLeaf]
  split
  next around =>
    obtain ⟨named, _⟩ := Bool.and_eq_true_iff.mp around
    have piece : spellingKind ((Text.slice? source (max start cursor) (max stop (max start cursor))).getD "") ≠
        .baseList := Kind.ne_of_isToken (spellingKind_isLeafKind _).1 rfl
    by_cases list : constructKind symbol = .baseList
    · simp [subtreesOf, subtrees, isList, list, named, piece]
    · simp [subtreesOf, subtrees, isList, list, piece]
  next bare =>
    have piece : leafKind symbol named ((Text.slice? source (max start cursor) (max stop (max start cursor))).getD "") ≠
        .baseList := Kind.ne_of_isToken (leafKind_isLeafKind _ _ _).1 rfl
    have unlisted : (decide (constructKind symbol = .baseList) && named) = false := by
      cases named with
      | false => simp
      | true =>
        have unknown : constructKind symbol = .unknown := by simpa using bare
        rw [unknown]
        rfl
    simp [subtreesOf, subtrees, isList, piece, unlisted]

theorem filter_isList_wrapBase (inBaseList : Bool) (child : Concrete) (lowered : List Tree) :
    (subtreesOf (wrapBase inBaseList child lowered)).filter isList = (subtreesOf lowered).filter isList := by
  unfold wrapBase
  split
  · simp [subtreesOf, subtrees, isList]
  · rfl

mutual

/-- The lists of a lowered tree are what the lists of the concrete tree have become, in order. -/
theorem lists_lower (source : String) (concrete : Concrete) (cursor : Nat) :
    List.Forall₂ (Lists source) (concrete.nodes.filter isBases)
      ((subtreesOf (lower source concrete cursor).1).filter isList) := by
  match concrete with
  | .node symbol named start stop [] =>
    rw [nodes, nodesOf, lower, filter_isList_lowerLeaf]
    cases bases : isBases (.node symbol named start stop []) with
    | true =>
      rw [List.filter_cons_of_pos bases]
      exact .cons ⟨⟨cursor, by rw [lower]⟩, fun inner => Bool.noConfusion inner⟩ .nil
    | false =>
      rw [List.filter_cons_of_neg (by simp [bases])]
      exact .nil
  | .node symbol named start stop (first :: rest) =>
    have all := lists_lowerAll source (isBaseList symbol) (first :: rest) cursor
    have bases := isBases_inner symbol named start stop first rest
    rw [nodes]
    cases transparent : isTransparent symbol with
    | true =>
      rw [isBaseList_of_transparent transparent] at bases
      rw [List.filter_cons_of_neg (by simp [bases]), lower]
      simpa [transparent] using all
    | false =>
      have lowered : (lower source (.node symbol named start stop (first :: rest)) cursor).1 =
          [.node (constructKind symbol) (lowerAll source (isBaseList symbol) (first :: rest) cursor).1] := by
        simp [lower, transparent]
      rw [lowered, subtreesOf, subtrees, subtreesOf, List.append_nil]
      cases list : isBaseList symbol with
      | true =>
        rw [list] at all bases lowered
        rw [List.filter_cons_of_pos bases, List.filter_cons_of_pos (by rw [isList_node, list])]
        exact .cons ⟨⟨cursor, lowered⟩, fun _ => references_lowerAll source (first :: rest) cursor⟩ all
      | false =>
        rw [list] at all bases
        rw [List.filter_cons_of_neg (by simp [bases]), List.filter_cons_of_neg (by simp [isList_node, list])]
        exact all

theorem lists_lowerAll (source : String) (inBaseList : Bool) (trees : List Concrete) (cursor : Nat) :
    List.Forall₂ (Lists source) ((nodesOf trees).filter isBases)
      ((subtreesOf (lowerAll source inBaseList trees cursor).1).filter isList) := by
  match trees with
  | [] => exact .nil
  | tree :: others =>
    simp only [lowerAll, nodesOf, subtreesOf_append, List.filter_append, filter_isList_wrapBase]
    exact List.rel_append (lists_lower source tree cursor) (lists_lowerAll source inBaseList others _)

end

/-- The tree a concrete tree of the source text stands for. -/
structure Shape (source : String) (concrete : Concrete) (tree : Tree) : Prop where
  /-- One token for each leaf, in order, and then the end of the file with what is left of the text. -/
  tokens : ∃ tokens trailing, tree.asNode.descendantTokens.map Node.tree = tokens ++ [.token .endOfFile trailing ""] ∧
    ReadInOrder source 0 concrete.leaves tokens ∧
    Text.sliceFrom? source (readUpTo 0 concrete.leaves) = some trailing
  wellFormed : tree.WellFormed
  filled : ∀ node ∈ tree.asNode.selfAndDescendants, node.isToken = false → node.descendantTokens ≠ []
  lists : List.Forall₂ (Lists source) (concrete.nodes.filter isBases)
    ((tree.asNode.descendantsOfKind .baseList).map Node.tree)

/-- The compilation unit of a file holds what has been lowered, as far as tokens, emptiness and lists go. -/
theorem enclose_parts {trees : List Tree} (leafy : Leafy trees) (last : Tree) :
    ∃ children, enclose trees last = .node .compilationUnit (children ++ [last]) ∧
      tokensOf children = tokensOf trees ∧ (subtreesOf children).filter isList = (subtreesOf trees).filter isList ∧
      (Filled trees → Filled children) := by
  obtain ⟨children, enclosed, rfl | rfl⟩ := enclose_cases leafy last
  · exact ⟨_, enclosed, rfl, rfl, id⟩
  · refine ⟨children, enclosed, ?_, ?_, ?_⟩
    · rw [tokensOf, tokensOf, List.append_nil, tokens_node rfl]
    · rw [subtreesOf, subtrees, subtreesOf, List.append_nil, List.filter_cons_of_neg (by simp [isList])]
    · exact fun filled found member => filled found (by simp [subtreesOf, subtrees, member])

/-- Every token, node and list of base types of a lowered file comes from its concrete tree, as long as the leaves
start and stop between characters of the text. -/
theorem toTree_shape {source : String} {concrete : Concrete}
    (cuts : ∀ offset ∈ concrete.leafOffsets, Text.Boundary source offset) :
    Shape source concrete (toTree source concrete) := by
  have ends : ∀ leaf ∈ concrete.leaves, Text.Boundary source leaf.start ∧ Text.Boundary source leaf.stop := by
    intro leaf member
    rw [leafOffsets_eq, List.forall_mem_flatMap] at cuts
    exact ⟨cuts leaf member leaf.start (by simp), cuts leaf member leaf.stop (by simp)⟩
  have start := Text.boundary_zero source
  obtain ⟨reads, cursor⟩ := readInOrder_lower start ends
  obtain ⟨trailing, tail⟩ := (boundary_readUpTo start ends).exists_rest
  obtain ⟨children, enclosed, tokens, lists, filled⟩ :=
    enclose_parts (leafy_lower source concrete 0) (.token .endOfFile trailing "")
  have tree : toTree source concrete = .node .compilationUnit (children ++ [.token .endOfFile trailing ""]) := by
    simp only [toTree, cursor, tail, Option.getD_some, enclosed]
  have sound := wellFormed_toTree source concrete
  have everywhere : Filled [toTree source concrete] := by
    have last : Filled [.token .endOfFile trailing ""] := .token rfl _ _
    have nonempty : tokensOf (children ++ [.token .endOfFile trailing ""]) ≠ [] := by
      simp [tokensOf_append, tokensOf, Tree.tokens, Kind.isToken]
    rw [tree]
    exact ((filled (filled_lower source concrete 0).1).append last).node rfl nonempty
  refine ⟨⟨tokensOf children, trailing, ?_, tokens ▸ reads, tail⟩, sound, ?_, ?_⟩
  · rw [map_tree_descendantTokens sound (by rw [tree]; rfl)]
    simp [Tree.asNode, tree, Tree.tokens, tokensOf_append, tokensOf, Kind.isToken]
  · intro node member inner none
    have among : node.tree ∈ (toTree source concrete).subtrees :=
      map_tree_selfAndDescendants (toTree source concrete).asNode ▸ List.mem_map_of_mem member
    obtain ⟨path, present⟩ := mem_subtrees.mp among
    apply everywhere node.tree (by simpa [subtreesOf] using among)
    rw [← map_tree_descendantTokens (sound.get? present) inner, none, List.map_nil]
  · have below : (subtreesOf (toTree source concrete).asNode.tree.children).filter isList =
        (subtreesOf (lower source concrete 0).1).filter isList := by
      rw [← lists]
      simp [Tree.asNode, tree, subtreesOf_append, subtreesOf, subtrees, isList]
    have found := lists_lower source concrete 0
    rwa [← below, ← map_tree_filter] at found

def listing : Concrete :=
  .node "class_declaration" true 0 12
    [.node "modifier" true 0 1 [], .node "identifier" true 2 4 [],
      .node "base_list" true 4 12
        [.node ":" false 4 5 [], .node "identifier" true 5 6 [], .node "," false 6 7 [], .node "comment" true 7 11 [],
          .node "identifier" true 11 12 []]]

theorem toTree_shape_listing :
    (∀ offset ∈ listing.leafOffsets, Text.Boundary "a é:B,/**/I" offset) ∧
      Shape "a é:B,/**/I" listing (toTree "a é:B,/**/I" listing) ∧
      (listing.nodes.filter isBases).map (fun bases => (bases.children.filter isEntry).length) = [2] := by
  have cuts : ∀ offset ∈ listing.leafOffsets, Text.Boundary "a é:B,/**/I" offset := by decide +kernel
  exact ⟨cuts, toTree_shape cuts, by decide +kernel⟩

end Concrete

end TreeLint
