import TreeLint.Proofs.Tidiness

/-! The shape of parsed trees. The grammar allows few things around the name of a declaration and at
the end of a class body, and that makes a tree tidy. -/

namespace TreeLint

/-- What the grammar promises about declarations and classes. -/
structure Tree.Grammatical (tree : Tree) : Prop where
  /-- Only tokens stand between the type of a declaration and its first declarator. -/
  typed : ∀ declaration ∈ tree.asNode.selfAndDescendants, declaration.kind = .variableDeclaration →
    ∀ type ∈ declaration.declaredType?, ∀ declarator ∈ declaration.firstDeclarator?,
      ∀ child ∈ declaration.children, type.index < child.index → child.index < declarator.index → child.isToken
  /-- A first declarator holds tokens besides its name, its `=` and its initial value. -/
  declared : ∀ declaration ∈ tree.asNode.selfAndDescendants, declaration.kind = .variableDeclaration →
    ∀ declarator ∈ declaration.firstDeclarator?, ∀ child ∈ declarator.children,
      declarator.declaratorName?.map Node.path ≠ some child.path → child.isEquals = false →
        declarator.initializer?.map Node.path ≠ some child.path → child.isToken
  /-- No class stands inside a declaration. -/
  flat : ∀ declaration ∈ tree.asNode.selfAndDescendants, declaration.kind = .variableDeclaration →
    ∀ inner ∈ declaration.descendants, inner.kind ≠ .classDeclaration
  /-- The last closing brace of a class body ends it. -/
  closed : ∀ definition ∈ tree.asNode.selfAndDescendants, definition.kind = .classDeclaration →
    ∀ body ∈ definition.classBody?, ∀ close ∈ Fix.closingBrace? body,
      body.children.getLast?.map Node.path = some close.path

namespace Tree

private theorem plain_of_isToken {tree : Tree} (shape : tree.WellFormed) (isToken : tree.kind.isToken = true) :
    tree.Plain := by
  cases tree with
  | token kind leading text => exact (neutral_token leading text shape).2
  | node kind children =>
    rw [kind_node, ((wellFormed_node kind children).mp shape).1] at isToken
    cases isToken

private theorem getElem?_dropWhile {α : Type} (wanted : α → Bool) (list : List α) (index : Nat) :
    (list.dropWhile wanted)[index]? = list[(list.takeWhile wanted).length + index]? := by
  have whole := List.takeWhile_append_dropWhile (p := wanted) (l := list)
  conv => rhs; rw [← whole]
  rw [List.getElem?_append_right (by simp)]
  simp

/-- All children of a first declarator but its initial value are tokens. -/
private theorem isToken_of_declarator {tree : Tree} (grammatical : tree.Grammatical) {declaration declarator : Node}
    (visited : declaration ∈ tree.asNode.selfAndDescendants) (kind : declaration.kind = .variableDeclaration)
    (first : declaration.firstDeclarator? = some declarator) {index : Nat} {child : Tree}
    (known : declarator.tree.children[index]? = some child)
    (other : index ≠ (declarator.tree.children.takeWhile fun child => !child.isEquals).length + 1) :
    child.kind.isToken = true := by
  have member : ⟨declarator.root, declarator.path ++ [index], child⟩ ∈ declarator.children := by
    refine List.mem_of_getElem? (i := index) ?_
    rw [Node.children_getElem?, known]
    rfl
  by_cases isName : declarator.declaratorName?.map Node.path = some (declarator.path ++ [index])
  · obtain ⟨name, found, place⟩ := Option.map_eq_some_iff.mp isName
    have same := Node.eq_of_path (List.mem_of_find?_eq_some found) member place
    have kind : name.kind = .identifier := by simpa using List.find?_some found
    rw [same] at kind
    rw [show child.kind = _ from kind]
    rfl
  by_cases equals : Node.isEquals ⟨declarator.root, declarator.path ++ [index], child⟩
  · simp only [Node.isEquals, Bool.and_eq_true, decide_eq_true_eq] at equals
    rw [show child.kind = _ from equals.1]
    rfl
  refine grammatical.declared declaration visited kind declarator first _ member isName (by simpa using equals) ?_
  intro initial
  obtain ⟨value, found, path⟩ := Option.map_eq_some_iff.mp initial
  rw [Node.initializer?, getElem?_dropWhile] at found
  have length : (declarator.children.takeWhile fun child => !child.isEquals).length =
      (declarator.tree.children.takeWhile fun child => !child.isEquals).length := by
    rw [← Node.map_tree_children, List.takeWhile_map, List.length_map]
    rfl
  have position := Node.index_of_getElem? declarator found
  rw [length] at position
  rw [Node.index, path] at position
  exact other (by simpa using position)

/-- All children of a boolean declaration in front of its first declarator are tokens. -/
private theorem isToken_of_type {tree : Tree} (grammatical : tree.Grammatical) {declaration declarator : Node}
    (visited : declaration ∈ tree.asNode.selfAndDescendants) (kind : declaration.kind = .variableDeclaration)
    (bool : declaration.tree.isBool) (first : declaration.firstDeclarator? = some declarator) {index : Nat} {child : Tree}
    (known : declaration.tree.children[index]? = some child) (before : index < declarator.index) :
    child.kind.isToken = true := by
  rw [Tree.isBool] at bool
  split at bool
  next type typeKnown =>
    simp only [Bool.and_eq_true, decide_eq_true_eq] at bool
    have isType : declaration.declaredType? = some ⟨declaration.root, declaration.path ++ [0], type⟩ := by
      rw [Node.declaredType?, Node.child?, Node.children_getElem?, typeKnown]
      simp [Option.filter, Node.kind, bool.1, Kind.isType]
    have place : declaration.children[index]? = some ⟨declaration.root, declaration.path ++ [index], child⟩ := by
      rw [Node.children_getElem?, known]
      rfl
    cases index with
    | zero =>
      rw [typeKnown] at known
      cases known
      rw [bool.1]
      rfl
    | succ index =>
      refine grammatical.typed declaration visited kind _ isType declarator first _ (List.mem_of_getElem? place) ?_ ?_
      · simp [Node.index]
      · rwa [Node.index_of_getElem? declaration place]
  next => cases bool

private theorem getElem?_of_spare {declarator piece : Tree}
    (member : piece ∈ (declarator.children.takeWhile fun child => !child.isEquals) ++
      (declarator.children.dropWhile fun child => !child.isEquals).take 1 ++
      (declarator.children.dropWhile fun child => !child.isEquals).drop 2) :
    ∃ index, declarator.children[index]? = some piece ∧
      index ≠ (declarator.children.takeWhile fun child => !child.isEquals).length + 1 := by
  rw [List.append_assoc, List.mem_append, List.mem_append] at member
  rcases member with front | sign | rest
  · obtain ⟨index, known⟩ := List.getElem?_of_mem front
    have inside := (List.getElem?_eq_some_iff.mp known).1
    refine ⟨index, ?_, by omega⟩
    rw [← List.takeWhile_append_dropWhile (p := fun child : Tree => !child.isEquals) (l := declarator.children),
      List.getElem?_append_left inside, known]
  · obtain ⟨index, known⟩ := List.getElem?_of_mem sign
    rw [List.getElem?_take, Option.ite_none_right_eq_some, getElem?_dropWhile] at known
    exact ⟨_, known.2, by omega⟩
  · obtain ⟨index, known⟩ := List.getElem?_of_mem rest
    rw [List.getElem?_drop, getElem?_dropWhile] at known
    exact ⟨_, known, by omega⟩

theorem plain_spares {tree : Tree} (shape : tree.WellFormed) (grammatical : tree.Grammatical) {node : Node}
    (visited : node ∈ tree.asNode.selfAndDescendants) (kind : node.kind = .variableDeclaration)
    (bool : node.tree.isBool) : ∀ spare ∈ node.tree.spares, spare.Plain := by
  obtain ⟨root, valid⟩ := (mem_selfAndDescendants tree node).mp visited
  have sound : node.tree.WellFormed := (root ▸ shape).get? valid
  intro spare member
  rw [spares, ← Node.map_tree_firstDeclarator?] at member
  cases first : node.firstDeclarator? with
  | none => rw [first] at member; cases member
  | some declarator =>
    rw [first] at member
    simp only [Option.map_some] at member
    have declaratorShape : declarator.tree.WellFormed :=
      sound.child (List.mem_of_getElem? (Node.mem_children (List.mem_of_find?_eq_some first)).2.2)
    rw [List.append_assoc, List.append_assoc, ← List.append_assoc (List.takeWhile _ _), List.mem_append] at member
    rcases member with before | inside
    · obtain ⟨index, known⟩ := List.getElem?_of_mem before
      rw [List.getElem?_take, Option.ite_none_right_eq_some, ← Fix.index_firstDeclarator? first] at known
      refine plain_of_isToken (sound.child (List.mem_of_getElem? known.2)) ?_
      exact isToken_of_type grammatical visited kind bool first known.2 known.1
    · obtain ⟨index, known, other⟩ := getElem?_of_spare inside
      exact plain_of_isToken (declaratorShape.child (List.mem_of_getElem? known))
        (isToken_of_declarator grammatical visited kind first known other)

private theorem bracketed_of_grammatical {tree : Tree} (grammatical : tree.Grammatical) {node : Node}
    (visited : node ∈ tree.asNode.selfAndDescendants) (kind : node.kind = .classDeclaration) : node.tree.bracketed := by
  rw [bracketed]
  by_cases closed : node.tree.isClosed
  · obtain ⟨body, close, isBody, shut⟩ := (Fix.isClosed_iff node).mp closed
    obtain ⟨last, known, path⟩ := Option.map_eq_some_iff.mp (grammatical.closed node visited kind body isBody close shut)
    have brace := List.mem_filter.mp (List.mem_of_getLast? shut)
    have isBrace : close.tree.isBrace := brace.2
    rw [Node.eq_of_path (List.mem_of_getLast? known) brace.1 path] at known
    rw [← Node.map_tree_classBody?, isBody, Option.map_some, Option.all_some, ← Node.map_tree_children body,
      List.getLast?_map, known, Option.map_some, Option.any_some, isBrace, Bool.or_true]
  · rw [isClosed] at closed
    cases isBody : node.tree.body? with
    | none => rfl
    | some body =>
      rw [isBody, Option.any_some] at closed
      simp [closed]

theorem tidy_of_grammatical {tree : Tree} (shape : tree.WellFormed) (grammatical : tree.Grammatical) : Tidy tree := by
  refine ⟨shape, ?_, ?_⟩
  · rw [tally_eq_zero]
    intro found member
    obtain ⟨path, present⟩ := mem_subtrees.mp member
    have visited : ⟨tree, path, found⟩ ∈ tree.asNode.selfAndDescendants :=
      (mem_selfAndDescendants tree _).mpr ⟨rfl, present⟩
    rw [untidy, isTidy]
    split
    next kind =>
      by_cases bool : found.isBool
      · have plain := plain_spares shape grammatical visited kind bool
        simpa [bool] using plain
      · simp [bool]
    next kind => rw [bracketed_of_grammatical grammatical visited kind]; rfl
    next => rfl
  · intro path below declared
    obtain ⟨declaration, present, kind⟩ := get?_of_isDeclaration declared
    rw [← Bool.not_eq_true]
    intro defined
    obtain ⟨definition, inside, isClass⟩ := get?_of_isDefinition defined
    have visited : ⟨tree, path, declaration⟩ ∈ tree.asNode.selfAndDescendants :=
      (mem_selfAndDescendants tree _).mpr ⟨rfl, present⟩
    have proper : path ++ below ≠ path := by
      intro same
      rw [same, present] at inside
      cases inside
      rw [kind] at isClass
      cases isClass
    have valid : Node.Valid ⟨tree, path, declaration⟩ := present
    have member : ⟨tree, path ++ below, definition⟩ ∈ Node.descendants ⟨tree, path, declaration⟩ :=
      (mem_descendants valid).mpr ⟨rfl, inside, List.prefix_append _ _, proper⟩
    exact grammatical.flat _ visited kind _ member isClass

end Tree

end TreeLint
