import TreeLint.Proofs.Detection

/-! Negating the uses of a name. The fix makes one edit for each use; all edits together amount to one
recursion over the tree. It exchanges leaves only, so as long as no declaration introduces the name,
what rules read of declarations and classes stays the same. -/

namespace TreeLint

namespace Tree

def isUse (name : String) : Tree → Bool
  | token kind _ text => kind = .identifier && text = name
  | node .. => false

mutual

/-- The tree with the uses of a name at the chosen places negated. -/
def negateAt (old new : String) (chosen : List Nat → Bool) : Tree → Tree
  | token kind leading text =>
    if (token kind leading text).isUse old && chosen [] then (Build.negation new).withLeading leading
    else token kind leading text
  | node kind children => node kind (negateAllAt old new chosen 0 children)

def negateAllAt (old new : String) (chosen : List Nat → Bool) (index : Nat) : List Tree → List Tree
  | [] => []
  | tree :: rest =>
    tree.negateAt old new (fun path => chosen (index :: path)) :: negateAllAt old new chosen (index + 1) rest

end

def negateUses (old new : String) (tree : Tree) : Tree :=
  tree.negateAt old new fun _ => true

section
variable {old new : String}

private theorem getElem?_negateAllAt (chosen : List Nat → Bool) (start : Nat) (trees : List Tree) (index : Nat) :
    (negateAllAt old new chosen start trees)[index]? =
      trees[index]?.map (negateAt old new fun path => chosen ((start + index) :: path)) := by
  induction trees generalizing start index with
  | nil => rfl
  | cons tree rest ih =>
    rw [negateAllAt]
    cases index with
    | zero => rfl
    | succ index =>
      rw [List.getElem?_cons_succ, List.getElem?_cons_succ, ih, show start + 1 + index = start + (index + 1) by omega]

private theorem negateAt_congr {first second : List Nat → Bool} {tree : Tree}
    (same : ∀ path found, tree.get? path = some found → found.isUse old → first path = second path) :
    tree.negateAt old new first = tree.negateAt old new second := by
  induction tree generalizing first second with
  | token kind leading text =>
    rw [negateAt, negateAt]
    by_cases used : (token kind leading text).isUse old
    · rw [same [] _ (get?_nil _) used]
    · simp [used]
  | node kind children ih =>
    rw [negateAt, negateAt]
    congr 1
    apply List.ext_getElem?
    intro index
    rw [getElem?_negateAllAt, getElem?_negateAllAt]
    cases known : children[index]? with
    | none => rfl
    | some child =>
      rw [Option.map_some, Option.map_some, ih child (List.mem_of_getElem? known)]
      intro path found present used
      exact same _ found (get?_cons_eq_some.mpr ⟨child, by simpa using known, present⟩) used

private theorem negateAt_none (tree : Tree) : tree.negateAt old new (fun _ => false) = tree := by
  induction tree with
  | token kind leading text => simp [negateAt]
  | node kind children ih =>
    rw [negateAt]
    congr 1
    apply List.ext_getElem?
    intro index
    rw [getElem?_negateAllAt]
    cases known : children[index]? with
    | none => rfl
    | some child => rw [Option.map_some, ih child (List.mem_of_getElem? known)]

/-- One more use. -/
private theorem replaceAt_negateAt {chosen : List Nat → Bool} {tree : Tree} {path : List Nat} {leading : String}
    (present : tree.get? path = some (token .identifier leading old)) :
    (tree.negateAt old new chosen).replaceAt path ((Build.negation new).withLeading leading) =
      tree.negateAt old new fun place => chosen place || place = path := by
  induction path generalizing tree chosen with
  | nil =>
    rw [get?_nil] at present
    cases present
    simp [negateAt, isUse]
  | cons index path ih =>
    obtain ⟨child, known, rest⟩ := get?_cons_eq_some.mp present
    cases tree with
    | token kind leading text => cases known
    | node kind children =>
      simp only [children_node] at known
      have there : (node kind (negateAllAt old new chosen 0 children)).children[index]? =
          some (child.negateAt old new fun path => chosen (index :: path)) := by
        rw [children_node, getElem?_negateAllAt, known, Nat.zero_add]
        rfl
      rw [negateAt, replaceAt_cons there, negateAt, ih rest, kind_node, children_node]
      congr 1
      apply List.ext_getElem?
      intro position
      rw [getElem?_negateAllAt, List.getElem?_set, getElem?_negateAllAt]
      by_cases same : index = position
      · subst position
        have inside : index < (negateAllAt old new chosen 0 children).length :=
          (List.getElem?_eq_some_iff.mp there).1
        rw [if_pos rfl, if_pos inside, known, Option.map_some]
        simp
      · rw [if_neg same]
        simp [Ne.symm same]

theorem wellFormed_negation (name : String) : (Build.negation name).WellFormed := by
  simp [Build.negation, Build.token, Build.identifier, WellFormed, AllWellFormed, Kind.isToken]

theorem eq_of_isUse {name : String} {tree : Tree} (used : tree.isUse name) :
    tree = token .identifier tree.ownLeading name := by
  cases tree with
  | token kind leading text =>
    simp only [isUse, Bool.and_eq_true, decide_eq_true_eq] at used
    rw [used.1, used.2]
    rfl
  | node kind children => cases used

theorem isUse_of_kind {name : String} {tree : Tree} (shape : tree.WellFormed) (isName : tree.kind = .identifier)
    (spelled : tree.spelling = name) : tree.isUse name := by
  cases tree with
  | token kind leading text =>
    rw [kind_token] at isName
    simp only [isUse, isName, decide_true, Bool.true_and, decide_eq_true_eq]
    exact spelled
  | node kind children =>
    rw [kind_node] at isName
    rw [isName, wellFormed_node] at shape
    cases shape.1

theorem mem_usesOf {tree : Tree} {name : String} (shape : tree.WellFormed) (inner : tree.kind.isToken = false)
    (node : Node) : node ∈ Fix.usesOf tree name ↔ node.root = tree ∧ node.Valid ∧ node.tree.isUse name := by
  rw [Fix.usesOf, Node.descendantsOfKind, List.mem_filter, List.mem_filter, decide_eq_true_eq, decide_eq_true_eq]
  constructor
  · intro ⟨⟨below, kind⟩, spelled⟩
    obtain ⟨sameRoot, valid⟩ := (mem_selfAndDescendants tree node).mp (List.mem_cons_of_mem _ below)
    exact ⟨sameRoot, valid, isUse_of_kind ((sameRoot ▸ shape).get? valid) kind spelled⟩
  · intro ⟨sameRoot, valid, used⟩
    have same := eq_of_isUse used
    have kind : node.kind = .identifier := by rw [Node.kind, same]; rfl
    refine ⟨⟨?_, kind⟩, by rw [Node.spelling, same]; rfl⟩
    rcases List.mem_cons.mp ((mem_selfAndDescendants tree node).mpr ⟨sameRoot, valid⟩) with rfl | below
    · rw [show tree.kind = .identifier from kind] at inner
      cases inner
    · exact below

/-- No use lies inside another one. -/
private theorem pairwise_usesOf {tree : Tree} (name : String) (shape : tree.WellFormed)
    (inner : tree.kind.isToken = false) :
    (Fix.usesOf tree name).Pairwise fun first second => Apart first.path second.path := by
  have order : (Fix.usesOf tree name).Pairwise fun first second => ¬ second.path <+: first.path := by
    rw [Fix.usesOf, Node.descendantsOfKind]
    exact ((List.pairwise_cons.mp (pairwise_selfAndDescendants tree)).2.filter _).filter _
  refine order.imp_of_mem ?_
  intro first second firstMember secondMember outside
  refine ⟨?_, outside⟩
  intro ⟨below, split⟩
  obtain ⟨firstRoot, firstValid, used⟩ := (mem_usesOf shape inner first).mp firstMember
  obtain ⟨secondRoot, secondValid, _⟩ := (mem_usesOf shape inner second).mp secondMember
  have inside := secondValid.get?_below (secondRoot.trans firstRoot.symm) firstValid split
  rw [eq_of_isUse used] at inside
  cases below with
  | nil => exact outside (by simp [← split])
  | cons index below =>
    obtain ⟨child, known, _⟩ := get?_cons_eq_some.mp inside
    cases known

private def negating (new : String) (use : Node) : Edit :=
  .replacing use (Build.negation new)

private theorem covers_negating (new : String) {tree : Tree} {use : Node} (shape : tree.WellFormed) (inner : tree.kind.isToken = false)
    (named : old ≠ "") (member : use ∈ Fix.usesOf tree old) :
    Covers tree (negating new use).kind (negating new use).span use := by
  obtain ⟨sameRoot, valid, used⟩ := (mem_usesOf shape inner use).mp member
  have spelled : use.spelling ≠ "" := by
    rw [Node.spelling, eq_of_isUse used]
    exact named
  have covers := Node.covers_of_leaf (sameRoot ▸ shape) valid spelled
  rwa [sameRoot] at covers

private theorem acceptable_uses {tree : Tree} (shape : tree.WellFormed) (inner : tree.kind.isToken = false)
    (named : old ≠ "") : Edit.Acceptable tree ((Fix.usesOf tree old).map (negating new)) := by
  refine ⟨?_, ?_⟩
  · intro edit member
    obtain ⟨use, present, rfl⟩ := List.mem_map.mp member
    exact ⟨use, covers_negating new shape inner named present⟩
  · rw [List.pairwise_map]
    refine (pairwise_usesOf old shape inner).imp_of_mem ?_
    intro first second firstMember secondMember apart
    obtain ⟨firstRoot, firstValid, _⟩ := (mem_usesOf shape inner first).mp firstMember
    obtain ⟨secondRoot, secondValid, _⟩ := (mem_usesOf shape inner second).mp secondMember
    have firstPresent : tree.get? first.path = some first.tree := by rw [← firstRoot]; exact firstValid
    have secondPresent : tree.get? second.path = some second.tree := by rw [← secondRoot]; exact secondValid
    have gap := disjoint_of_apart apart firstPresent secondPresent
    simp only [negating, Edit.overlaps, Edit.replacing, Span.overlaps, Node.span, Node.offset, firstRoot, secondRoot,
      Bool.and_eq_false_imp, decide_eq_true_eq, decide_eq_false_iff_not]
    omega

private theorem foldl_substitute (chosen : List Nat → Bool) {tree : Tree} {edits : List Edit}
    (shape : tree.WellFormed) (inner : tree.kind.isToken = false) (named : old ≠ "")
    (each : ∀ edit ∈ edits, ∃ use ∈ Fix.usesOf tree old, edit = negating new use) :
    edits.foldl (Edit.substitute (Edit.place tree)) (tree.negateAt old new chosen) =
      tree.negateAt old new fun path => chosen path || edits.any fun edit => path = (Edit.place tree edit).1 := by
  induction edits generalizing chosen with
  | nil => simp
  | cons edit rest ih =>
    obtain ⟨use, member, rfl⟩ := each edit (by simp)
    obtain ⟨sameRoot, valid, used⟩ := (mem_usesOf shape inner use).mp member
    have place := Edit.place_eq (covers_negating new shape inner named member)
    have leaf := eq_of_isUse used
    have present : tree.get? use.path = some (token .identifier use.tree.ownLeading old) := by
      rw [← leaf, ← sameRoot]
      exact valid
    have trivia : use.tree.leading = use.tree.ownLeading := by
      rw [leaf]
      rfl
    have step : Edit.substitute (Edit.place tree) (tree.negateAt old new chosen) (negating new use) =
        tree.negateAt old new fun path => chosen path || path = use.path := by
      rw [Edit.substitute, place]
      simp only [negating, Edit.replacing, trivia]
      exact replaceAt_negateAt present
    rw [List.foldl_cons, step, ih _ (fun other later => each other (by simp [later]))]
    congr 1
    funext path
    rw [List.any_cons, place, Bool.or_assoc]

/-- The edits for all uses are carried out, and they negate all uses. -/
theorem applyAll_uses {tree : Tree} (shape : tree.WellFormed) (inner : tree.kind.isToken = false) (named : old ≠ "") :
    Edit.applyAll tree ((Fix.usesOf tree old).map fun token => .replacing token (Build.negation new)) =
      .ok (tree.negateUses old new) := by
  have fresh : ∀ edit ∈ (Fix.usesOf tree old).map (negating new), edit.replacement.WellFormed := by
    intro edit member
    obtain ⟨use, _, rfl⟩ := List.mem_map.mp member
    exact wellFormed_negation new
  have member {edit : Edit} : edit ∈ Edit.ordered ((Fix.usesOf tree old).map (negating new)) ↔
      ∃ use ∈ Fix.usesOf tree old, edit = negating new use := by
    rw [(Edit.ordered_perm _).mem_iff, List.mem_map]
    simp only [eq_comm]
  have folded := foldl_substitute (fun _ => false) shape inner named (fun edit present => member.mp present)
  rw [negateAt_none] at folded
  rw [show (fun token => Edit.replacing token (Build.negation new)) = negating new from rfl,
    Edit.applyAll_eq_foldl (acceptable_uses shape inner named) shape fresh]
  rw [folded, negateUses]
  congr 1
  apply negateAt_congr
  intro path found present used
  have use : ⟨tree, path, found⟩ ∈ Fix.usesOf tree old := (mem_usesOf shape inner _).mpr ⟨rfl, present, used⟩
  rw [Bool.false_or, List.any_eq_true]
  refine ⟨negating new ⟨tree, path, found⟩, member.mpr ⟨_, use, rfl⟩, ?_⟩
  rw [Edit.place_eq (covers_negating new shape inner named use), decide_eq_true_eq]

theorem negateUses_node (kind : Kind) (children : List Tree) :
    (node kind children).negateUses old new = node kind (children.map (negateUses old new)) := by
  rw [negateUses, negateAt]
  congr 1
  apply List.ext_getElem?
  intro index
  rw [getElem?_negateAllAt, List.getElem?_map]
  rfl

theorem negateUses_of_isUse {tree : Tree} (used : tree.isUse old) :
    tree.negateUses old new = (Build.negation new).withLeading tree.ownLeading := by
  rw [eq_of_isUse used]
  simp [negateUses, negateAt, isUse, ownLeading]

theorem negateUses_token {kind : Kind} {leading text : String} (other : ¬ (token kind leading text).isUse old) :
    (token kind leading text).negateUses old new = token kind leading text := by
  simp [negateUses, negateAt, other]

theorem kind_negateUses (tree : Tree) :
    (tree.negateUses old new).kind = if tree.isUse old then .prefixUnary else tree.kind := by
  by_cases used : tree.isUse old
  · rw [negateUses_of_isUse used, if_pos used, kind_withLeading (wellFormed_negation new)]
    rfl
  · rw [if_neg used]
    cases tree with
    | token kind leading text => rw [negateUses_token used]
    | node kind children => rw [negateUses_node, kind_node, kind_node]

theorem kind_of_isUse {name : String} {tree : Tree} (used : tree.isUse name) : tree.kind = .identifier := by
  rw [eq_of_isUse used]
  rfl

theorem kind_negateUses_eq {kind : Kind} (tree : Tree) (notName : kind ≠ .identifier) (notNegation : kind ≠ .prefixUnary) :
    (tree.negateUses old new).kind = kind ↔ tree.kind = kind := by
  rw [kind_negateUses]
  split
  next used => simp [kind_of_isUse used, Ne.symm notName, Ne.symm notNegation]
  next => rfl

theorem spelling_negateUses {tree : Tree} (other : ¬ tree.isUse old) :
    (tree.negateUses old new).spelling = tree.spelling := by
  cases tree with
  | token kind leading text => rw [negateUses_token other]
  | node kind children => rw [negateUses_node]; rfl

theorem children_negateUses {tree : Tree} (other : ¬ tree.isUse old) :
    (tree.negateUses old new).children = tree.children.map (negateUses old new) := by
  cases tree with
  | token kind leading text => rw [negateUses_token other]; rfl
  | node kind children => rw [negateUses_node]; rfl

theorem WellFormed.negateUses {tree : Tree} (shape : tree.WellFormed) : (tree.negateUses old new).WellFormed := by
  induction tree with
  | token kind leading text =>
    by_cases used : (token kind leading text).isUse old
    · rw [negateUses_of_isUse used]
      exact (wellFormed_negation new).withLeading _
    · rwa [negateUses_token used]
  | node kind children ih =>
    obtain ⟨inner, below⟩ := (wellFormed_node kind children).mp shape
    rw [negateUses_node, wellFormed_node]
    refine ⟨inner, ?_⟩
    intro child member
    obtain ⟨first, present, rfl⟩ := List.mem_map.mp member
    exact ih first present (below first present)

private theorem spelled_punctuation_negateUses (tree : Tree) (text : String) :
    ((tree.negateUses old new).kind = .punctuation ∧ (tree.negateUses old new).spelling = text) ↔
      tree.kind = .punctuation ∧ tree.spelling = text := by
  rw [kind_negateUses_eq tree (by decide) (by decide)]
  by_cases used : tree.isUse old
  · simp [kind_of_isUse used]
  · rw [spelling_negateUses used]

@[simp] theorem isEquals_negateUses (tree : Tree) : (tree.negateUses old new).isEquals = tree.isEquals := by
  rw [isEquals, isEquals, ← Bool.decide_and, ← Bool.decide_and, decide_eq_decide]
  exact spelled_punctuation_negateUses tree "="

@[simp] theorem isBrace_negateUses (tree : Tree) : (tree.negateUses old new).isBrace = tree.isBrace := by
  rw [isBrace, isBrace, ← Bool.decide_and, ← Bool.decide_and, decide_eq_decide]
  exact spelled_punctuation_negateUses tree "\x7d"

@[simp] theorem isLiteral_negateUses (tree : Tree) : (tree.negateUses old new).isLiteral = tree.isLiteral := by
  rw [isLiteral, isLiteral, ← Bool.decide_or, ← Bool.decide_or, decide_eq_decide,
    kind_negateUses_eq tree (by decide) (by decide), kind_negateUses_eq tree (by decide) (by decide)]

theorem find?_negateUses {kind : Kind} (trees : List Tree) (notName : kind ≠ .identifier)
    (notNegation : kind ≠ .prefixUnary) :
    ((trees.map (negateUses old new)).find? fun child => child.kind = kind) =
      (trees.find? fun child => child.kind = kind).map (negateUses old new) := by
  rw [List.find?_map]
  congr 2
  funext child
  simp only [Function.comp_apply, kind_negateUses_eq child notName notNegation]

/-- The first name is still the first one, unless it was a use itself. -/
private theorem find?_name_negateUses {trees : List Tree}
    (other : (trees.find? fun child => child.kind = .identifier).map spelling ≠ some old) :
    ((trees.map (negateUses old new)).find? fun child => child.kind = .identifier).map spelling =
      (trees.find? fun child => child.kind = .identifier).map spelling := by
  induction trees with
  | nil => rfl
  | cons tree rest ih =>
    rw [List.map_cons, List.find?_cons, List.find?_cons]
    rw [List.find?_cons] at other
    by_cases name : tree.kind = .identifier
    · simp only [name, decide_true] at other ⊢
      have unused : ¬ tree.isUse old := by
        intro used
        apply other
        rw [Option.map_some, eq_of_isUse used]
        rfl
      rw [kind_negateUses, if_neg unused, name]
      simp [spelling_negateUses unused]
    · have kept : (tree.negateUses old new).kind ≠ .identifier := by
        rw [kind_negateUses]
        split
        · decide
        · exact name
      simp only [name, kept, decide_false] at other ⊢
      exact ih other

theorem not_isUse_of_kind {name : String} {tree : Tree} (other : tree.kind ≠ .identifier) : ¬ tree.isUse name :=
  fun used => other (kind_of_isUse used)

private theorem ownName?_negateUses {tree : Tree} (notName : tree.kind ≠ .identifier) (other : tree.ownName? ≠ some old) :
    (tree.negateUses old new).ownName? = tree.ownName? := by
  rw [ownName?, children_negateUses (not_isUse_of_kind notName), find?_name_negateUses other, ownName?]

theorem introduced?_negateUses {tree : Tree} (other : tree.introduced? ≠ some old) :
    (tree.negateUses old new).introduced? = tree.introduced? := by
  by_cases used : tree.isUse old
  · rw [introduced?, introduced?, kind_negateUses, if_pos used, kind_of_isUse used]
  rw [introduced?, introduced?, kind_negateUses, if_neg used, children_negateUses used]
  rw [introduced?] at other
  split
  next kind =>
    simp only [kind] at other
    exact ownName?_negateUses (by rw [kind]; decide) other
  next kind =>
    simp only [kind] at other
    have same : (fun child : Tree => !child.isEquals) ∘ negateUses old new = fun child => !child.isEquals := by
      funext child
      simp
    -- The last name is the first one from behind.
    have fromBehind (trees : List Tree) : (trees.filter fun child => child.kind = .identifier).getLast? =
        trees.reverse.find? fun child => child.kind = .identifier := by
      rw [List.getLast?_eq_head?_reverse, ← List.filter_reverse, List.head?_filter]
    rw [fromBehind] at other
    rw [List.takeWhile_map, same, fromBehind, fromBehind, ← List.map_reverse, find?_name_negateUses other]
  next => rfl

theorem isBool_negateUses {tree : Tree} (used : ¬ tree.isUse old) :
    (tree.negateUses old new).isBool = tree.isBool := by
  rw [isBool, isBool, children_negateUses used, List.getElem?_map]
  cases tree.children[0]? with
  | none => rfl
  | some type =>
    simp only [Option.map_some]
    by_cases typeUsed : type.isUse old
    · simp [kind_negateUses, kind_of_isUse typeUsed, typeUsed]
    · rw [kind_negateUses, if_neg typeUsed, spelling_negateUses typeUsed]

private theorem declaredName?_negateUses {tree : Tree} (used : ¬ tree.isUse old)
    (fresh : ∀ child ∈ tree.children, child.introduced? ≠ some old) :
    (tree.negateUses old new).declaredName? = tree.declaredName? := by
  rw [declaredName?, declaredName?, declarator?, declarator?, children_negateUses used,
    find?_negateUses _ (by decide) (by decide)]
  cases search : tree.children.find? fun child => child.kind = .variableDeclarator with
  | none => rfl
  | some declarator =>
    have kind := kind_of_find? search
    have other := fresh declarator (List.mem_of_find?_eq_some search)
    rw [introduced?, kind] at other
    exact ownName?_negateUses (by rw [kind]; decide) other

private theorem literal?_negateUses {tree : Tree} (used : ¬ tree.isUse old) :
    (tree.negateUses old new).literal? = tree.literal?.map (negateUses old new) := by
  rw [literal?, literal?, declarator?, declarator?, children_negateUses used,
    find?_negateUses _ (by decide) (by decide)]
  cases search : tree.children.find? fun child => child.kind = .variableDeclarator with
  | none => rfl
  | some declarator =>
    have same : (fun child : Tree => !child.isEquals) ∘ negateUses old new = fun child => !child.isEquals := by
      funext child
      simp
    have inner : ¬ declarator.isUse old := not_isUse_of_kind (by rw [kind_of_find? search]; decide)
    rw [Option.map_some, Option.bind_some, Option.bind_some, initializer?, initializer?, children_negateUses inner,
      List.dropWhile_map, same, List.getElem?_map]
    cases (declarator.children.dropWhile fun child => !child.isEquals)[1]? with
    | none => rfl
    | some value => by_cases literal : value.isLiteral <;> simp [Option.filter, literal]

theorem body?_negateUses {tree : Tree} (used : ¬ tree.isUse old) :
    (tree.negateUses old new).body? = tree.body?.map (negateUses old new) := by
  rw [body?, body?, children_negateUses used, find?_negateUses _ (by decide) (by decide)]

theorem children_body_negateUses {tree body : Tree} (isBody : tree.body? = some body) :
    (body.negateUses old new).children = body.children.map (negateUses old new) :=
  children_negateUses (not_isUse_of_kind (by rw [kind_of_find? isBody]; decide))

private theorem any_body_negateUses {tree : Tree} (used : ¬ tree.isUse old) {wanted : Tree → Bool}
    (same : ∀ child, wanted (child.negateUses old new) = wanted child) :
    ((tree.negateUses old new).body?.any fun body => body.children.any wanted) =
      tree.body?.any fun body => body.children.any wanted := by
  rw [body?_negateUses used]
  cases isBody : tree.body? with
  | none => rfl
  | some body =>
    rw [Option.map_some, Option.any_some, Option.any_some, children_body_negateUses isBody, List.any_map]
    congr 1
    funext child
    exact same child

private theorem methodName?_negateUses {name : String} {tree : Tree} (used : ¬ tree.isUse old) (other : old ≠ name) :
    (tree.negateUses old new).methodName? = some name ↔ tree.methodName? = some name := by
  have same : (fun child : Tree => decide (child.kind = .parameterList)) ∘ negateUses old new =
      fun child => decide (child.kind = .parameterList) := by
    funext child
    rw [Function.comp_apply, decide_eq_decide, kind_negateUses_eq child (by decide) (by decide)]
  rw [methodName?, methodName?, children_negateUses used, List.findIdx?_map, same]
  split
  next index found =>
    rw [List.getElem?_map]
    cases tree.children[index]? with
    | none => rfl
    | some child =>
      by_cases childUsed : child.isUse old
      · have spelled : child.spelling = old := by rw [eq_of_isUse childUsed]; rfl
        simp [Option.filter, kind_negateUses, childUsed, kind_of_isUse childUsed, spelled, other]
      · by_cases isName : child.kind = .identifier <;>
          simp [Option.filter, kind_negateUses, childUsed, spelling_negateUses childUsed, isName]
  next => rfl

private theorem isMethodNamed_negateUses {name : String} (other : old ≠ name) (tree : Tree) :
    (tree.negateUses old new).isMethodNamed name = tree.isMethodNamed name := by
  rw [isMethodNamed, isMethodNamed, ← Bool.decide_and, ← Bool.decide_and, decide_eq_decide,
    kind_negateUses_eq tree (by decide) (by decide)]
  by_cases method : tree.kind = .methodDeclaration
  · rw [methodName?_negateUses (not_isUse_of_kind (by rw [method]; decide)) other]
  · simp [method]

def Unclaimed (name : String) (tree : Tree) : Prop :=
  ∀ found ∈ tree.subtrees, found.introduced? ≠ some name

theorem role_negateUses {tree : Tree} (unclaimed : Unclaimed old tree) (other : old ≠ toStringName) :
    (tree.negateUses old new).role = tree.role := by
  by_cases landmark : tree.kind.isLandmark
  · have used : ¬ tree.isUse old := by
      intro used
      rw [kind_of_isUse used] at landmark
      cases landmark
    have kept : (tree.negateUses old new).kind = tree.kind := by rw [kind_negateUses, if_neg used]
    have fresh : ∀ child ∈ tree.children, child.introduced? ≠ some old := by
      intro child member
      exact unclaimed child (mem_subtrees_of_child member (self_mem_subtrees child))
    rw [role, role, kept, isBool_negateUses used, declaredName?_negateUses used fresh, literal?_negateUses used,
      Option.isSome_map, isClosed, isClosed, any_body_negateUses used isBrace_negateUses, declares, declares,
      any_body_negateUses used (isMethodNamed_negateUses other)]
  · have plain : tree.kind.isLandmark = false := by simpa using landmark
    have kept : (tree.negateUses old new).kind.isLandmark = false := by
      rw [kind_negateUses]
      split
      · rfl
      · exact plain
    rw [role_other plain, role_other kept]

theorem plain_negation (name leading : String) : ((Build.negation name).withLeading leading).Plain := by
  apply Plain.withLeading _ (wellFormed_negation name)
  refine plain_node.mpr ⟨rfl, ?_⟩
  intro child member
  simp only [List.mem_cons, List.not_mem_nil, or_false] at member
  rcases member with rfl | rfl <;> exact plain_token _ _ rfl

theorem tally_negateUses {weigh : Tree → Nat} (weight : Weight weigh) {tree : Tree}
    (same : ∀ found ∈ tree.subtrees, weigh (found.negateUses old new) = weigh found) :
    tally weigh (tree.negateUses old new) = tally weigh tree := by
  induction tree with
  | token kind leading text =>
    by_cases used : (token kind leading text).isUse old
    · rw [negateUses_of_isUse used, tally_of_plain weight (plain_negation _ _), tally_eq,
        weight.light _ (by rw [kind_of_isUse used]; rfl)]
      rfl
    · rw [negateUses_token used]
  | node kind children ih =>
    have here := same _ (self_mem_subtrees _)
    rw [tally_eq, here, tally_eq weigh (node kind children), negateUses_node, children_node, children_node, List.map_map]
    congr 2
    apply List.map_congr_left
    intro child member
    apply ih child member
    exact fun found inside => same found (mem_subtrees_of_child member inside)

theorem tally_role_negateUses {weigh : Role → Nat} (light : weigh .other = 0) {tree : Tree}
    (unclaimed : Unclaimed old tree) (other : old ≠ toStringName) :
    tally (fun tree => weigh tree.role) (tree.negateUses old new) = tally (fun tree => weigh tree.role) tree := by
  apply tally_negateUses (weight_of_role light)
  intro found member
  rw [role_negateUses (fun inner inside => unclaimed inner (subtrees_trans member inside)) other]

theorem roleAt_negateUses {tree : Tree} (unclaimed : Unclaimed old tree) (other : old ≠ toStringName)
    (path : List Nat) : (tree.negateUses old new).roleAt path = tree.roleAt path := by
  induction path generalizing tree with
  | nil => rw [roleAt_nil, roleAt_nil, role_negateUses unclaimed other]
  | cons index path ih =>
    cases tree with
    | token kind leading text =>
      by_cases used : (token kind leading text).isUse old
      · rw [negateUses_of_isUse used, roleAt_of_plain (plain_negation _ _), roleAt_cons]
        rfl
      · rw [negateUses_token used]
    | node kind children =>
      rw [roleAt_cons, roleAt_cons, negateUses_node, children_node, children_node, List.map_map]
      congr 2
      apply List.map_congr_left
      intro child member
      exact ih fun found inside => unclaimed found (mem_subtrees_of_child member inside)

end

end Tree

end TreeLint
