import TreeLint.Proofs.Uses

/-! What the renaming fix does. It is refused unless the name can lose its prefix, the initial value is
a literal and the old name is introduced nowhere else. Otherwise the declaration shows the new name,
and no other declaration or class outside it looks different. -/

namespace TreeLint

namespace Tree

theorem isToken_of_inside {tree found : Tree} {path : List Nat} (shape : tree.WellFormed)
    (present : tree.get? path = some found) (inner : found.kind.isToken = false) : tree.kind.isToken = false := by
  cases path with
  | nil => rw [get?_nil] at present; cases present; exact inner
  | cons index path =>
    obtain ⟨child, known, _⟩ := get?_cons_eq_some.mp present
    cases tree with
    | token kind leading text => cases known
    | node kind children => exact ((wellFormed_node kind children).mp shape).1

end Tree

/-- A token is introduced by a node that has it for its name, and that node is its parent. -/
theorem Node.isIntroduced_iff {token : Node} (valid : token.Valid) :
    token.isIntroduced ↔ ∃ parent : Node, parent.root = token.root ∧ parent.Valid ∧ parent.introducedName? = some token := by
  constructor
  · intro introduced
    rw [isIntroduced] at introduced
    split at introduced
    next name known =>
      obtain ⟨parent, up, known⟩ := Option.bind_eq_some_iff.mp known
      have around : parent ∈ token.ancestorsAndSelf := List.mem_of_mem_tail (List.mem_of_head? up)
      obtain ⟨parentRoot, parentValid, _⟩ := (mem_ancestorsAndSelf token parent).mp around
      obtain ⟨child, _⟩ := introducedName?_mem _ known
      have same : name = token :=
        ext_of_path ((mem_children child).1.trans parentRoot) (by simpa using introduced) (parentValid.child child) valid
      exact ⟨parent, parentRoot, parentValid, same ▸ known⟩
    next => cases introduced
  · intro ⟨parent, _, parentValid, known⟩
    obtain ⟨child, _⟩ := introducedName?_mem _ known
    rw [isIntroduced, parent?_of_mem_children parentValid child, Option.bind_some, known]
    simp

namespace Tree

/-- The fix counts uses that are introduced; there are none exactly if nothing introduces the name. -/
theorem any_isIntroduced {tree : Tree} {name : String} (shape : tree.WellFormed) (inner : tree.kind.isToken = false) :
    (Fix.usesOf tree name).any Node.isIntroduced = false ↔ Unclaimed name tree := by
  rw [List.any_eq_false]
  constructor
  · intro none found member introduced
    obtain ⟨path, present⟩ := mem_subtrees.mp member
    have valid : Node.Valid ⟨tree, path, found⟩ := present
    have known := Node.map_spelling_introducedName? ⟨tree, path, found⟩
    rw [introduced, Option.map_eq_some_iff] at known
    obtain ⟨nameNode, known, spelled⟩ := known
    obtain ⟨child, isName⟩ := Node.introducedName?_mem _ known
    have childValid := valid.child child
    have sameRoot : nameNode.root = tree := (Node.mem_children child).1
    apply none nameNode
    · refine (mem_usesOf shape inner nameNode).mpr ⟨sameRoot, childValid, ?_⟩
      exact isUse_of_kind ((sameRoot ▸ shape).get? childValid) isName spelled
    · exact (Node.isIntroduced_iff childValid).mpr ⟨_, sameRoot.symm, valid, known⟩
  · intro unclaimed use member introduced
    obtain ⟨sameRoot, valid, used⟩ := (mem_usesOf shape inner use).mp member
    obtain ⟨parent, parentRoot, parentValid, known⟩ := (Node.isIntroduced_iff valid).mp introduced
    apply unclaimed parent.tree
    · refine mem_subtrees.mpr ⟨parent.path, ?_⟩
      rw [← sameRoot, ← parentRoot]
      exact parentValid
    · rw [← Node.map_spelling_introducedName?, known, Option.map_some, Node.spelling, eq_of_isUse used]
      rfl

def others (declaration : Tree) : List Tree :=
  declaration.children.drop ((declaration.children.findIdx fun child => child.kind = .variableDeclarator) + 1)

def renamed (declaration value : Tree) (name : String) : Tree :=
  Build.declaration "bool" (Build.declarator name (some value)) declaration.others

def newDeclarator (value : Tree) (name : String) : Tree :=
  node .variableDeclarator [token .identifier " " name, token .punctuation " " "=", value.withLeading " "]

theorem renamed_eq (declaration value : Tree) (name : String) :
    renamed declaration value name = node .variableDeclaration
      (token .predefinedType "" "bool" :: newDeclarator value name :: declaration.others) := by
  simp [renamed, newDeclarator, Build.declaration, Build.declarator, Build.token, Build.identifier, Build.spaced, withLeading,
    withLeadingFirst, firstToken?, Kind.isToken]

theorem literal?_parts {declaration value : Tree} (literal : declaration.literal? = some value) :
    ∃ declarator, declaration.declarator? = some declarator ∧ declarator.initializer? = some value ∧ value.isLiteral := by
  rw [literal?, Option.filter_eq_some_iff, Option.bind_eq_some_iff] at literal
  obtain ⟨⟨declarator, first, known⟩, isLiteral⟩ := literal
  exact ⟨declarator, first, known, isLiteral⟩

theorem WellFormed.literal? {declaration value : Tree} (shape : declaration.WellFormed)
    (literal : declaration.literal? = some value) : value.WellFormed := by
  obtain ⟨declarator, first, known, _⟩ := literal?_parts literal
  have member : value ∈ declarator.children := (List.dropWhile_sublist _).subset (List.mem_of_getElem? known)
  exact (shape.child (List.mem_of_find?_eq_some first)).child member

theorem wellFormed_renamed {declaration value : Tree} (shape : declaration.WellFormed)
    (literal : declaration.literal? = some value) (name : String) : (declaration.renamed value name).WellFormed := by
  rw [renamed_eq, wellFormed_node]
  refine ⟨rfl, ?_⟩
  intro child member
  rcases List.mem_cons.mp member with rfl | member
  · rfl
  rcases List.mem_cons.mp member with rfl | member
  · refine (wellFormed_node _ _).mpr ⟨rfl, ?_⟩
    simp only [List.mem_cons, List.not_mem_nil, or_false, forall_eq_or_imp, forall_eq]
    exact ⟨rfl, rfl, (shape.literal? literal).withLeading _⟩
  · exact shape.child (List.mem_of_mem_drop member)

theorem kind_renamed {declaration value : Tree} (shape : declaration.WellFormed)
    (literal : declaration.literal? = some value) (name trivia : String) :
    ((declaration.renamed value name).withLeading trivia).kind = .variableDeclaration := by
  rw [kind_withLeading (wellFormed_renamed shape literal name), renamed_eq, kind_node]

theorem role_renamed {declaration value : Tree} (shape : declaration.WellFormed)
    (literal : declaration.literal? = some value) (name trivia : String) :
    ((declaration.renamed value name).withLeading trivia).role = .declaration true (some name) true := by
  obtain ⟨_, _, _, isLiteral⟩ := literal?_parts literal
  have still : (value.withLeading " ").isLiteral := by
    rwa [Tree.isLiteral, kind_withLeading (shape.literal? literal)]
  rw [role_withLeading (wellFormed_renamed shape literal name), renamed_eq, role_declaration rfl]
  simp [newDeclarator, isBool, declaredName?, literal?, declarator?, ownName?, initializer?, spelling, isEquals,
    Option.filter, still]

def spares (declaration : Tree) : List Tree :=
  match declaration.declarator? with
  | some declarator =>
    declaration.children.take (declaration.children.findIdx fun child => child.kind = .variableDeclarator) ++
      (declarator.children.takeWhile fun child => !child.isEquals) ++
      (declarator.children.dropWhile fun child => !child.isEquals).take 1 ++
      (declarator.children.dropWhile fun child => !child.isEquals).drop 2
  | none => []

theorem tally_declaration (weigh : Tree → Nat) {declaration declarator value : Tree}
    (first : declaration.declarator? = some declarator) (known : declarator.initializer? = some value) :
    tally weigh declaration = weigh declaration + (declaration.spares.map (tally weigh)).sum + weigh declarator +
      tally weigh value + (declaration.others.map (tally weigh)).sum := by
  have here : declaration.children[declaration.children.findIdx fun child => child.kind = .variableDeclarator]? =
      some declarator := by
    rw [← List.find?_eq_getElem?_findIdx]
    exact first
  have whole := split_at here
  rw [initializer?] at known
  cases tail : declarator.children.dropWhile fun child => !child.isEquals with
  | nil => rw [tail] at known; cases known
  | cons equals rest =>
    cases rest with
    | nil => rw [tail] at known; cases known
    | cons second more =>
      rw [tail] at known
      obtain rfl : second = value := by simpa using known
      have inner : declarator.children =
          (declarator.children.takeWhile fun child => !child.isEquals) ++ equals :: second :: more := by
        rw [← tail, List.takeWhile_append_dropWhile]
      have below : (declarator.children.map (tally weigh)).sum =
          ((declarator.children.takeWhile fun child => !child.isEquals).map (tally weigh)).sum +
            (tally weigh equals + (tally weigh second + (more.map (tally weigh)).sum)) := by
        conv => lhs; rw [inner]
        simp only [List.map_append, List.sum_append_nat, List.map_cons, List.sum_cons]
      have outer : (declaration.children.map (tally weigh)).sum =
          ((declaration.children.take
              (declaration.children.findIdx fun child => child.kind = .variableDeclarator)).map (tally weigh)).sum +
            (tally weigh declarator + (declaration.others.map (tally weigh)).sum) := by
        conv => lhs; rw [whole]
        simp only [List.map_append, List.sum_append_nat, List.map_cons, List.sum_cons, others]
      rw [tally_eq, outer, tally_eq weigh declarator, below, spares, first]
      simp only [tail, List.map_append, List.sum_append_nat, List.take_succ_cons, List.take_zero, List.drop_succ_cons,
        List.drop_zero, List.map_cons, List.map_nil, List.sum_cons, List.sum_nil]
      omega

theorem tally_renamed {weigh : Tree → Nat} (weight : Weight weigh) {declaration value : Tree}
    (shape : declaration.WellFormed) (literal : declaration.literal? = some value) (name trivia : String) :
    tally weigh ((declaration.renamed value name).withLeading trivia) =
      weigh ((declaration.renamed value name).withLeading trivia) + weigh (newDeclarator value name) +
        tally weigh value + (declaration.others.map (tally weigh)).sum := by
  have freshShape := wellFormed_renamed shape literal name
  have leaf (kind : Kind) (plain : kind.isNaming = false) (leading text : String) :
      tally weigh (token kind leading text) = 0 :=
    tally_of_plain weight (plain_token leading text plain)
  have declared : tally weigh (newDeclarator value name) = weigh (newDeclarator value name) + tally weigh value := by
    rw [tally_eq]
    simp only [newDeclarator, children_node, List.map_cons, List.sum_cons, List.map_nil, List.sum_nil,
      leaf .identifier rfl, leaf .punctuation rfl, tally_withLeading weight.sketched (shape.literal? literal)]
    omega
  rw [tally_withLeading weight.sketched freshShape, tally_eq, ← weight.sketched (Tree.withLeading _ _),
    sketch_withLeading freshShape, weight.sketched]
  simp only [renamed_eq, children_node, List.map_cons, List.sum_cons, leaf .predefinedType rfl, declared]
  omega

theorem role_declarator {declaration declarator : Tree} (first : declaration.declarator? = some declarator) :
    declarator.role = .other :=
  role_other (by rw [kind_of_find? first]; rfl)

theorem role_newDeclarator (value : Tree) (name : String) : (newDeclarator value name).role = .other :=
  role_other rfl

/-- Renaming brings no class into a declaration. -/
theorem definitions_renamed {declaration value : Tree} (shape : declaration.WellFormed)
    (literal : declaration.literal? = some value)
    (bare : tally (fun tree => tree.role.definitions) declaration = 0) (name trivia : String) :
    tally (fun tree => tree.role.definitions) ((declaration.renamed value name).withLeading trivia) = 0 := by
  obtain ⟨declarator, first, known, _⟩ := literal?_parts literal
  rw [tally_declaration _ first known] at bare
  rw [tally_renamed (weight_of_role rfl) shape literal, role_renamed shape literal, role_newDeclarator]
  simp only [Role.definitions, Role.isDefinition, Bool.toNat_false] at bare ⊢
  omega

end Tree

namespace Fix
open TreeLint.Tree

variable {tree : Tree} {node : Node} {name : String}

theorem affirmed_ne {name : String} (negated : Name.isNegated name) : Name.affirmed name ≠ name := by
  intro same
  have shorter := Name.length_affirmed name
  have long := Name.length_of_isNegated negated
  rw [same] at shorter
  omega

theorem Renaming.read_eq (found : Negated tree node name) (shape : tree.WellFormed) :
    ∃ declarator, node.firstDeclarator? = some declarator ∧
      Renaming.read tree node.span =
        if startsName (Name.affirmed name) then
          match declarator.initializer?.filter Node.isLiteral with
          | some value => .ok ⟨node, declarator, name, value⟩
          | none => .error (refuse (.notLiteral name))
        else .error (refuse (.invalidName name)) := by
  obtain ⟨bool, named, negated⟩ := found.parts
  rw [← Node.declaredName?_eq, Node.declaredName?, Option.map_eq_some_iff] at named
  obtain ⟨nameNode, known, rfl⟩ := named
  rw [Option.bind_eq_some_iff] at known
  obtain ⟨declarator, first, known⟩ := known
  refine ⟨declarator, first, ?_⟩
  rw [← Node.isBool_eq] at bool
  rw [Node.spelling] at negated
  simp only [Renaming.read, covering_eq_ok_iff.mpr (found.covers shape), bind, Except.bind, pure, Except.pure, bool,
    first, known, Node.spelling, negated, Bool.not_true, Bool.false_eq_true, if_false]
  by_cases starts : startsName (Name.affirmed nameNode.tree.spelling)
  · simp only [starts, Bool.not_true, Bool.false_eq_true, if_false, if_true]
    cases declarator.initializer?.filter Node.isLiteral <;> rfl
  · simp [starts]

/-- The tree in which the declaration at a node has lost its prefix, before its uses are negated. -/
def renamedAt (tree : Tree) (node : Node) (name : String) (value : Tree) : Tree :=
  tree.replaceAt node.path ((node.tree.renamed value (Name.affirmed name)).withLeading node.tree.leading)

theorem index_firstDeclarator? {node declarator : Node} (first : node.firstDeclarator? = some declarator) :
    declarator.index = node.tree.children.findIdx fun child => child.kind = .variableDeclarator := by
  have known := Node.map_index_childOfKind? node .variableDeclarator
  rw [show node.childOfKind? .variableDeclarator = some declarator from first] at known
  exact (List.findIdx?_eq_some_iff_findIdx_eq.mp known.symm).2.symm

/-- The nodes that the literal of a declaration is read from. -/
theorem nodes_of_literal? {node : Node} {value : Tree} (literal : node.tree.literal? = some value) :
    ∃ declarator initial, node.firstDeclarator? = some declarator ∧ declarator.initializer? = some initial ∧
      initial.isLiteral ∧ initial.tree = value := by
  have known := node.map_tree_literal?
  rw [literal] at known
  obtain ⟨initial, chosen, same⟩ := Option.map_eq_some_iff.mp known
  obtain ⟨declarator, first, chosen⟩ := Option.bind_eq_some_iff.mp chosen
  obtain ⟨initialized, isLiteral⟩ := Option.filter_eq_some_iff.mp chosen
  exact ⟨declarator, initial, first, initialized, isLiteral, same⟩

/-- The children of a declaration that the fix does not write again: those in front of the first declarator, and those
of the declarator other than its initial value. -/
def discarded (declaration : Node) : List Node :=
  match declaration.firstDeclarator? with
  | none => []
  | some declarator =>
    declaration.children.take declarator.index ++
      match declarator.initializer? with
      | none => declarator.children
      | some value => declarator.children.eraseIdx value.index

theorem discarded_eq {declaration declarator value : Node} (first : declaration.firstDeclarator? = some declarator)
    (initial : declarator.initializer? = some value) :
    discarded declaration =
      declaration.children.take declarator.index ++ declarator.children.eraseIdx value.index := by
  simp only [discarded, first, initial]

theorem Renaming.replacement_eq {node declarator : Node} (first : node.firstDeclarator? = some declarator)
    (name : String) (value : Node) :
    Renaming.replacement ⟨node, declarator, name, value⟩ = node.tree.renamed value.tree (Name.affirmed name) := by
  rw [replacement, rest, renamed, others, index_firstDeclarator? first]
  rfl

theorem replaces_renamed (found : Negated tree node name) (shape : tree.WellFormed) {value : Tree}
    (literal : node.tree.literal? = some value) :
    Replaces ((node.tree.renamed value (Name.affirmed name)).withLeading node.tree.leading) node.tree := by
  have sound := found.sound shape
  have kind : node.tree.kind = .variableDeclaration := found.kind_eq
  refine ⟨?_, by rw [kind]; rfl, (wellFormed_renamed sound literal _).withLeading _⟩
  rw [kind_renamed sound literal, kind]

theorem wellFormed_renamedAt (found : Negated tree node name) (shape : tree.WellFormed) {value : Tree}
    (literal : node.tree.literal? = some value) : (renamedAt tree node name value).WellFormed :=
  shape.replaceAt found.present (replaces_renamed found shape literal).shape

theorem inner_renamedAt (found : Negated tree node name) (shape : tree.WellFormed) {value : Tree}
    (literal : node.tree.literal? = some value) : (renamedAt tree node name value).kind.isToken = false := by
  have kind : node.tree.kind = .variableDeclaration := found.kind_eq
  rw [renamedAt, kind_replaceAt found.present (replaces_renamed found shape literal).kind_eq]
  exact isToken_of_inside shape found.present (by rw [kind]; rfl)

/-- What comes of the fix. The looking up and the two rounds of edits never fail. -/
theorem negatedName_eq (found : Negated tree node name) (shape : tree.WellFormed) :
    negatedName tree node.span =
      if startsName (Name.affirmed name) then
        match node.tree.literal? with
        | some value =>
          if (usesOf (renamedAt tree node name value) name).any Node.isIntroduced then
            .error (refuse (.declaredAgain name))
          else .ok ((renamedAt tree node name value).negateUses name (Name.affirmed name))
        | none => .error (refuse (.notLiteral name))
      else .error (refuse (.invalidName name)) := by
  obtain ⟨declarator, first, read⟩ := Renaming.read_eq found shape
  have literal := Node.map_tree_literal? node
  rw [first, Option.bind_some] at literal
  rw [negatedName, read, ← literal]
  by_cases starts : startsName (Name.affirmed name)
  · rw [if_pos starts, if_pos starts]
    cases known : declarator.initializer?.filter Node.isLiteral with
    | none => rfl
    | some value =>
      rw [known] at literal
      have fresh := wellFormed_renamed (found.sound shape) literal.symm (Name.affirmed name)
      have covers := found.covers shape
      rw [← found.kind_eq] at covers
      have renamedShape := wellFormed_renamedAt found shape literal.symm
      have inner := inner_renamedAt found shape literal.symm
      simp only [bind, Except.bind, Option.map_some]
      rw [Renaming.replacement_eq first, Edit.applyAll_replacing shape covers fresh]
      simp only [carriedOut, Renaming.newName]
      rw [← renamedAt, applyAll_uses renamedShape inner (Name.ne_empty found.parts.2.2)]
  · rw [if_neg starts, if_neg starts]
    rfl

/-- When the fix goes through, and to which tree. -/
theorem negatedName_eq_ok (found : Negated tree node name) (shape : tree.WellFormed) {fixed : Tree} :
    negatedName tree node.span = .ok fixed ↔
      startsName (Name.affirmed name) ∧ ∃ value, node.tree.literal? = some value ∧
        Unclaimed name (renamedAt tree node name value) ∧
        fixed = (renamedAt tree node name value).negateUses name (Name.affirmed name) := by
  rw [negatedName_eq found shape]
  by_cases starts : startsName (Name.affirmed name)
  · rw [if_pos starts]
    cases literal : node.tree.literal? with
    | none => simp
    | some value =>
      have asked : _ ↔ Unclaimed name (renamedAt tree node name value) :=
        any_isIntroduced (wellFormed_renamedAt found shape literal) (inner_renamedAt found shape literal)
      simp only [starts, true_and, Option.some.injEq, exists_eq_left', ← asked]
      cases (usesOf (renamedAt tree node name value) name).any Node.isIntroduced <;> simp [eq_comm]
  · simp [starts]

/-- What a renamed declaration weighs more or less than before. -/
theorem tally_renamedAt {weigh : Tree → Nat} (weight : Weight weigh) (found : Negated tree node name)
    (shape : tree.WellFormed) {declarator value : Tree} (first : node.tree.declarator? = some declarator)
    (literal : node.tree.literal? = some value) :
    tally weigh (renamedAt tree node name value) + weigh node.tree + (node.tree.spares.map (tally weigh)).sum +
        weigh declarator =
      tally weigh tree + weigh ((node.tree.renamed value (Name.affirmed name)).withLeading node.tree.leading) +
        weigh (newDeclarator value (Name.affirmed name)) := by
  have sound := found.sound shape
  have present := found.present
  obtain ⟨_, same, known, _⟩ := literal?_parts literal
  obtain rfl := Option.some.inj (same.symm.trans first)
  have old := tally_declaration weigh first known
  have new := tally_renamed weight sound literal (Name.affirmed name) node.tree.leading
  have exchanged := tally_replaceAt weight.sketched present sound (replaces_renamed found shape literal)
  rw [← renamedAt] at exchanged
  omega

/-- All that other parts of the theory need to know of a fixed declaration. -/
structure Renamed (tree : Tree) (node : Node) (name : String) (fixed : Tree) : Prop where
  shape : fixed.WellFormed
  before : tree.roleAt node.path = .declaration true (some name) true
  after : fixed.roleAt node.path = .declaration true (some (Name.affirmed name)) true
  elsewhere : ∀ place, ¬ node.path <+: place → fixed.roleAt place = tree.roleAt place
  inside : (∀ below, (tree.roleAt (node.path ++ below)).isDefinition = false) →
    ∀ below, (fixed.roleAt (node.path ++ below)).isDefinition = false
  tally : ∀ weigh : Role → Nat, weigh .other = 0 →
    Tree.tally (fun tree => weigh tree.role) fixed + weigh (.declaration true (some name) true) ≤
      Tree.tally (fun tree => weigh tree.role) tree + weigh (.declaration true (some (Name.affirmed name)) true)

theorem renamed_of_ok (found : Negated tree node name) (shape : tree.WellFormed) {fixed : Tree}
    (done : negatedName tree node.span = .ok fixed) : Renamed tree node name fixed := by
  obtain ⟨_, value, literal, unclaimed, rfl⟩ := (negatedName_eq_ok found shape).mp done
  have sound := found.sound shape
  have present := found.present
  obtain ⟨declarator, first, known, _⟩ := literal?_parts literal
  have fits := replaces_renamed found shape literal
  have other := Name.ne_toString found.parts.2.2
  have old : node.tree.role = .declaration true (some name) true := by
    rw [role_declaration found.kind_eq, found.parts.1, found.parts.2.1, literal]
    rfl
  have new := role_renamed sound literal (Name.affirmed name) node.tree.leading
  refine ⟨?_, ?_, ?_, ?_, ?_, ?_⟩
  · exact (shape.replaceAt present fits.shape).negateUses
  · rw [roleAt_eq present, old]
  · rw [roleAt_negateUses unclaimed other, renamedAt, roleAt_eq (get?_replaceAt_self present _), new]
  · intro place apart
    rw [roleAt_negateUses unclaimed other, renamedAt, roleAt_replaceAt present sound fits apart]
  · intro none below
    have bare : Tree.tally (fun tree => tree.role.definitions) node.tree = 0 := by
      rw [tally_role_eq_zero rfl]
      intro path
      rw [← roleAt_append present, Role.definitions, none path]
      rfl
    have here := (tally_role_eq_zero rfl).mp
      (definitions_renamed sound literal bare (Name.affirmed name) node.tree.leading) below
    rw [roleAt_negateUses unclaimed other, renamedAt, roleAt_replaceAt_below present]
    simpa [Role.definitions] using here
  · intro weigh light
    have exchanged := tally_renamedAt (weight_of_role light) found shape first literal
    rw [old, new, role_declarator first, role_newDeclarator, light] at exchanged
    rw [tally_role_negateUses light unclaimed other]
    omega

end Fix

end TreeLint
