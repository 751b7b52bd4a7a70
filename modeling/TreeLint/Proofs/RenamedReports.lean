import Mathlib.Data.List.Basic
import TreeLint.Proofs.Fixability

/-! What the naming rule reports when one of its reports has been fixed. The rule reads nothing but the first name of
a boolean declaration, and the fix is refused when another declaration introduces the old name; so the reports on
all other declarations stay. They stand where they stood, but for those inside the fixed declaration, of which
some pieces are gone. -/

namespace TreeLint

private theorem filterMap_cons_toList {α β : Type} (read : α → Option β) (first : α) (rest : List α) :
    (first :: rest).filterMap read = (read first).toList ++ rest.filterMap read := by
  cases known : read first with
  | none => rw [List.filterMap_cons_none known]; rfl
  | some found => rw [List.filterMap_cons_some known]; rfl

private theorem filterMap_flatMap_replicate {α β : Type} (read : α → Option β) (count : Nat) (list : List α) :
    (list.flatMap (List.replicate count)).filterMap read = (list.filterMap read).flatMap (List.replicate count) := by
  induction list with
  | nil => rfl
  | cons first rest ih =>
    rw [List.flatMap_cons, List.filterMap_append, ih, filterMap_cons_toList, List.flatMap_append]
    congr 1
    cases known : read first with
    | none => rw [List.filterMap_replicate_of_none known]; rfl
    | some found => rw [List.filterMap_replicate_of_some known]; simp

namespace Tree

def beneath (above : List Nat) (found : List Nat × String) : List Nat × String :=
  (above ++ found.1, found.2)

theorem map_beneath_nil (names : List (List Nat × String)) : names.map (beneath []) = names :=
  List.map_id names

theorem map_beneath (above below : List Nat) (names : List (List Nat × String)) :
    (names.map (beneath below)).map (beneath above) = names.map (beneath (above ++ below)) := by
  rw [List.map_map]
  congr 1
  funext found
  simp [beneath]

def numbered (index : Nat) : List (List (List Nat × String)) → List (List Nat × String)
  | [] => []
  | names :: rest => names.map (beneath [index]) ++ numbered (index + 1) rest

theorem numbered_append (index : Nat) (first second : List (List (List Nat × String))) :
    numbered index (first ++ second) = numbered index first ++ numbered (index + first.length) second := by
  induction first generalizing index with
  | nil => rfl
  | cons names rest ih =>
    rw [List.cons_append, numbered, ih, numbered, List.append_assoc, List.length_cons,
      show index + 1 + rest.length = index + (rest.length + 1) by omega]

theorem numbered_eq_nil (index : Nat) {lists : List (List (List Nat × String))} (empty : ∀ names ∈ lists, names = []) :
    numbered index lists = [] := by
  induction lists generalizing index with
  | nil => rfl
  | cons names rest ih =>
    obtain ⟨here, later⟩ := List.forall_mem_cons.mp empty
    rw [numbered, here, ih _ later]
    rfl

theorem index_of_mem_numbered {index : Nat} {lists : List (List (List Nat × String))} {found : List Nat × String}
    (member : found ∈ numbered index lists) :
    ∃ position below, found.1 = position :: below ∧ index ≤ position ∧ position < index + lists.length := by
  induction lists generalizing index with
  | nil => cases member
  | cons names rest ih =>
    rcases List.mem_append.mp member with here | later
    · obtain ⟨inner, _, rfl⟩ := List.mem_map.mp here
      exact ⟨index, inner.1, rfl, Nat.le_refl _, by simp⟩
    · obtain ⟨position, below, split, lower, upper⟩ := ih later
      exact ⟨position, below, split, by omega, by rw [List.length_cons]; omega⟩

def ownNegation (tree : Tree) : List (List Nat × String) :=
  tree.role.negated?.toList.map fun name => ([], name)

mutual

/-- The negated names of the boolean declarations in a tree, each with the place of its declaration, in source order. -/
def negations : Tree → List (List Nat × String)
  | token .. => []
  | node kind children => (node kind children).ownNegation ++ numbered 0 (negationsOf children)

def negationsOf : List Tree → List (List (List Nat × String))
  | [] => []
  | tree :: rest => tree.negations :: negationsOf rest

end

theorem negationsOf_eq_map (trees : List Tree) : negationsOf trees = trees.map negations := by
  induction trees with
  | nil => rfl
  | cons tree rest ih => rw [negationsOf, ih, List.map_cons]

theorem ownNegation_token (kind : Kind) (leading text : String) : (token kind leading text).ownNegation = [] := by
  rw [ownNegation]
  cases kind <;> rfl

theorem negations_eq (tree : Tree) :
    tree.negations = tree.ownNegation ++ numbered 0 (tree.children.map negations) := by
  cases tree with
  | token kind leading text => rw [ownNegation_token]; rfl
  | node kind children => rw [negations, negationsOf_eq_map]; rfl

theorem negations_of_isToken {tree : Tree} (shape : tree.WellFormed) (isToken : tree.kind.isToken) :
    tree.negations = [] := by
  cases tree with
  | token kind leading text => rfl
  | node kind children =>
    rw [kind_node, ((wellFormed_node kind children).mp shape).1] at isToken
    cases isToken

end Tree

def Node.negation? (node : Node) : Option (List Nat × String) :=
  node.tree.role.negated?.map fun name => (node.path, name)

namespace Tree

theorem toList_negation? (root tree : Tree) (path : List Nat) :
    (Node.negation? ⟨root, path, tree⟩).toList = tree.ownNegation.map (beneath path) := by
  rw [Node.negation?, ownNegation]
  cases tree.role.negated? <;> simp [beneath]

mutual

theorem filterMap_preorderFrom (root tree : Tree) (path : List Nat) :
    (Node.preorderFrom root path tree).filterMap Node.negation? = tree.negations.map (beneath path) := by
  cases tree with
  | token kind leading text =>
    rw [Node.preorderFrom, filterMap_cons_toList, toList_negation?, ownNegation_token]
    rfl
  | node kind children =>
    rw [Node.preorderFrom, filterMap_cons_toList, toList_negation?, filterMap_preorderAll root children path 0, negations,
      List.map_append]

theorem filterMap_preorderAll (root : Tree) (trees : List Tree) (path : List Nat) (index : Nat) :
    (Node.preorderAll root path index trees).filterMap Node.negation? =
      (numbered index (negationsOf trees)).map (beneath path) := by
  cases trees with
  | nil => rfl
  | cons tree rest =>
    rw [Node.preorderAll, List.filterMap_append, filterMap_preorderFrom root tree, filterMap_preorderAll root rest,
      negationsOf, numbered, List.map_append, map_beneath]

end

theorem filterMap_negation? (tree : Tree) :
    tree.asNode.selfAndDescendants.filterMap Node.negation? = tree.negations := by
  rw [Node.selfAndDescendants, Node.descendants_eq_preorder, ← Node.preorderFrom_eq, filterMap_preorderFrom]
  exact map_beneath_nil tree.negations

end Tree

def namings (rules : List Rule) (tree : Tree) : List Defect :=
  (detect rules tree).filter fun defect => defect.rule = .negatedName

def Defect.shown (defect : Defect) : List Nat × List String :=
  (defect.anchor.path, defect.arguments)

def reportOf (found : List Nat × String) : List Nat × List String :=
  (found.1, [found.2])

theorem negation?_eq_none {node : Node} (other : node.kind ≠ .variableDeclaration) : node.negation? = none := by
  rw [Node.negation?, Option.map_eq_none_iff, Tree.role]
  split
  next kind => exact absurd kind other
  next => rfl
  next => rfl

/-- A rule that is given several times reports as often. -/
theorem shown_defectsAt (rules : List Rule) (node : Node) :
    ((defectsAt rules node).filter fun defect => defect.rule = .negatedName).map Defect.shown =
      (node.negation?.toList.map reportOf).flatMap (List.replicate (rules.count .negatedName)) := by
  by_cases kind : node.kind = .variableDeclaration
  · induction rules with
    | nil => cases node.negation? <;> rfl
    | cons rule rest ih =>
      rw [defectsAt] at ih ⊢
      cases rule with
      | negatedName =>
        rw [List.filter_cons_of_pos (by rw [kind]; rfl), List.count_cons_self]
        have asked : Rule.negatedName.check node = _ := checkNegatedName_eq node kind
        rw [filterMap_cons_toList, asked, List.filter_append, List.map_append, ih, Node.negation?]
        cases node.tree.role.negated? <;> rfl
      | missingToString =>
        rw [List.filter_cons_of_neg (by rw [kind]; decide), List.count_cons_of_ne (by decide), ih]
  · rw [negation?_eq_none kind, Option.toList_none, List.map_nil, List.flatMap_nil, List.map_eq_nil_iff, List.filter_eq_nil_iff]
    intro defect member isNaming
    rw [defectsAt, List.mem_filterMap] at member
    obtain ⟨rule, enabled, found⟩ := member
    rw [List.mem_filter, decide_eq_true_eq] at enabled
    rw [(of_check found).1, decide_eq_true_eq] at isNaming
    rw [isNaming] at enabled
    exact kind enabled.2.symm

theorem shown_namings (rules : List Rule) (tree : Tree) :
    (namings rules tree).map Defect.shown =
      (tree.negations.map reportOf).flatMap (List.replicate (rules.count .negatedName)) := by
  rw [namings, detect, List.filter_flatMap, List.map_flatMap, ← Tree.filterMap_negation?,
    List.filterMap_eq_flatMap_toList, List.map_flatMap, List.flatMap_assoc]
  exact List.flatMap_congr fun node _ => shown_defectsAt rules node

namespace Tree

theorem numbered_split {trees : List Tree} {child : Tree} {index : Nat} (known : trees[index]? = some child) :
    numbered 0 (trees.map negations) =
      numbered 0 ((trees.take index).map negations) ++
        (child.negations.map (beneath [index]) ++ numbered (index + 1) ((trees.drop (index + 1)).map negations)) := by
  have inside := (List.getElem?_eq_some_iff.mp known).1
  conv => lhs; rw [split_at known]
  rw [List.map_append, List.map_cons, numbered_append, List.length_map, List.length_take, Nat.min_eq_left (Nat.le_of_lt inside),
    Nat.zero_add, numbered]

theorem negations_withLeading {tree : Tree} (shape : tree.WellFormed) (trivia : String) :
    (tree.withLeading trivia).negations = tree.negations := by
  induction tree with
  | token kind leading text =>
    simp only [WellFormed] at shape
    simp only [withLeading, shape, if_true, negations]
  | node kind children ih =>
    have own := role_withLeading shape trivia
    obtain ⟨inner, below⟩ := (wellFormed_node kind children).mp shape
    simp only [withLeading, inner, Bool.false_eq_true, if_false] at own ⊢
    rw [negations_eq, ownNegation, own, children_node,
      map_withLeadingFirst negations fun child member => ih child member (below child member), negations_eq,
      ownNegation, children_node]

/-- A replaced landmark changes the names at its place and below, and no others. -/
theorem negations_replaceAt {tree found : Tree} {path : List Nat} (present : tree.get? path = some found)
    (shape : found.WellFormed) :
    ∃ front back, (∀ other ∈ front ++ back, ¬ path <+: other.1) ∧
      tree.negations = front ++ found.negations.map (beneath path) ++ back ∧
      ∀ replacement, Replaces replacement found →
        (tree.replaceAt path replacement).negations = front ++ replacement.negations.map (beneath path) ++ back := by
  induction path generalizing tree with
  | nil =>
    rw [get?_nil] at present
    cases present
    refine ⟨[], [], by simp, ?_, fun replacement _ => ?_⟩
    · rw [map_beneath_nil, List.nil_append, List.append_nil]
    · rw [replaceAt_nil, map_beneath_nil, List.nil_append, List.append_nil]
  | cons index path ih =>
    obtain ⟨child, known, rest⟩ := get?_cons_eq_some.mp present
    obtain ⟨front, back, outside, old, new⟩ := ih rest
    have inside := (List.getElem?_eq_some_iff.mp known).1
    have step (names : List (List Nat × String)) :
        (front ++ names.map (beneath path) ++ back).map (beneath [index]) =
          front.map (beneath [index]) ++ names.map (beneath (index :: path)) ++ back.map (beneath [index]) := by
      rw [List.map_append, List.map_append, map_beneath]
      rfl
    refine ⟨tree.ownNegation ++ numbered 0 ((tree.children.take index).map negations) ++ front.map (beneath [index]),
      back.map (beneath [index]) ++ numbered (index + 1) ((tree.children.drop (index + 1)).map negations), ?_, ?_, ?_⟩
    · have beside (other : List Nat × String) (inner : other ∈ front ++ back) :
          ¬ index :: path <+: (beneath [index] other).1 := fun up =>
        outside other inner (List.cons_prefix_cons.mp up).2
      intro other member up
      rw [List.mem_append, List.mem_append, List.mem_append, List.mem_append] at member
      rcases member with ((own | early) | before) | behind | late
      · obtain ⟨name, _, rfl⟩ := List.mem_map.mp own
        cases List.prefix_nil.mp up
      · obtain ⟨position, below, split, _, upper⟩ := index_of_mem_numbered early
        rw [split, List.cons_prefix_cons] at up
        rw [List.length_map, List.length_take] at upper
        omega
      · obtain ⟨inner, among, rfl⟩ := List.mem_map.mp before
        exact beside inner (List.mem_append_left _ among) up
      · obtain ⟨inner, among, rfl⟩ := List.mem_map.mp behind
        exact beside inner (List.mem_append_right _ among) up
      · obtain ⟨position, below, split, lower, _⟩ := index_of_mem_numbered late
        rw [split, List.cons_prefix_cons] at up
        omega
    · rw [negations_eq, numbered_split known, old, step]
      simp only [List.append_assoc]
    · intro replacement fits
      have own : (tree.replaceAt (index :: path) replacement).role = tree.role := by
        rw [← role_sketch, sketch_replaceAt (by simp) present shape fits, role_sketch]
      have changed : (tree.children.set index (child.replaceAt path replacement))[index]? =
          some (child.replaceAt path replacement) := List.getElem?_set_self inside
      rw [negations_eq, ownNegation, own, ← ownNegation, children_replaceAt_cons known, numbered_split changed,
        new replacement fits, step, List.take_set_of_le (Nat.le_refl index), List.drop_set_of_lt (Nat.lt_succ_self index)]
      simp only [List.append_assoc]

theorem negations_negateUses {old new : String} {tree : Tree} (unclaimed : Unclaimed old tree)
    (other : old ≠ toStringName) : (tree.negateUses old new).negations = tree.negations := by
  induction tree with
  | token kind leading text =>
    by_cases used : (token kind leading text).isUse old
    · rw [negateUses_of_isUse used, negations_withLeading (wellFormed_negation new)]
      rfl
    · rw [negateUses_token used]
  | node kind children ih =>
    have own : ((node kind children).negateUses old new).role = _ := role_negateUses unclaimed other
    rw [negations_eq, ownNegation, own, negations_eq (node kind children), ownNegation, negateUses_node, children_node,
      children_node, List.map_map]
    congr 2
    apply List.map_congr_left
    intro child member
    exact ih child member fun found inside => unclaimed found (mem_subtrees_of_child member inside)

/-- Nothing but the initial value and what stands behind the first declarator declares anything. -/
theorem negations_declaration {declaration declarator value : Tree} {first second : Nat}
    (here : declaration.children[first]? = some declarator) (inner : declarator.children[second]? = some value)
    (isDeclarator : declarator.kind = .variableDeclarator)
    (bare : ∀ piece ∈ declaration.children.take first ++ declarator.children.eraseIdx second, piece.negations = []) :
    declaration.negations =
      declaration.ownNegation ++ value.negations.map (beneath [first, second]) ++
        numbered (first + 1) ((declaration.children.drop (first + 1)).map negations) := by
  rw [List.eraseIdx_eq_take_drop_succ] at bare
  have empty {pieces : List Tree} (index : Nat)
      (inside : pieces ⊆ declaration.children.take first ++
        (declarator.children.take second ++ declarator.children.drop (second + 1))) :
      numbered index (pieces.map negations) = [] := by
    apply numbered_eq_nil
    exact List.forall_mem_map.mpr fun piece member => bare piece (inside member)
  have none : declarator.ownNegation = [] := by
    rw [ownNegation, role_other (by rw [isDeclarator]; rfl)]
    rfl
  have declared : declarator.negations = value.negations.map (beneath [second]) := by
    rw [negations_eq, none, numbered_split inner, empty 0 (by simp), empty (second + 1) (by simp)]
    simp
  rw [negations_eq, numbered_split here, empty 0 (by simp), declared, map_beneath]
  simp

theorem negations_renamed {declaration value : Tree} (shape : declaration.WellFormed)
    (literal : declaration.literal? = some value) (name trivia : String) :
    ((declaration.renamed value name).withLeading trivia).negations =
      (if Name.isNegated name then [([], name)] else []) ++ value.negations.map (beneath [1, 2]) ++
        numbered 2 (declaration.others.map negations) := by
  have fresh := wellFormed_renamed shape literal name
  have own : (declaration.renamed value name).ownNegation = if Name.isNegated name then [([], name)] else [] := by
    rw [ownNegation, ← role_withLeading fresh trivia, role_renamed shape literal]
    by_cases negated : Name.isNegated name <;> simp [Role.negated?, Option.filter, negated]
  have declarator : (newDeclarator value name).negations = value.negations.map (beneath [2]) := by
    rw [negations_eq, ownNegation, role_newDeclarator]
    simp [newDeclarator, Role.negated?, numbered, negations, negations_withLeading (shape.literal? literal)]
  rw [negations_withLeading fresh, negations_eq, own, renamed_eq, children_node, List.map_cons, List.map_cons, numbered,
    numbered, declarator, map_beneath]
  simp [negations]

end Tree

namespace Fix
open TreeLint.Tree

/-- Where a piece of a declaration is found when its first declarator, which has this index, and all in front of it
have been written anew. -/
def relocated (declarator : Nat) : List Nat → List Nat
  | [] => []
  | index :: below => if declarator < index then (index - declarator + 1) :: below else 1 :: 2 :: below.drop 1

/-- Where a place of the file is found after the fix. -/
def movedPath (declaration declarator : Node) (path : List Nat) : List Nat :=
  if declaration.path <+: path then
    declaration.path ++ relocated declarator.index (path.drop declaration.path.length)
  else path

/-- What becomes of a report of the naming rule when the fix has been applied to a declaration of this name. -/
def carriedOver (declaration declarator : Node) (name : String) (shown : List Nat × List String) :
    Option (List Nat × List String) :=
  if shown.1 = declaration.path then
    if Name.isNegated (Name.affirmed name) then some (declaration.path, [Name.affirmed name]) else none
  else some (movedPath declaration declarator shown.1, shown.2)

theorem relocated_value (declarator value : Nat) (names : List (List Nat × String)) :
    (names.map (beneath [declarator, value])).map (fun found => (relocated declarator found.1, found.2)) =
      names.map (beneath [1, 2]) := by
  rw [List.map_map]
  apply List.map_congr_left
  intro found _
  simp [beneath, relocated]

theorem relocated_numbered (declarator index : Nat) (lists : List (List (List Nat × String))) :
    (numbered (declarator + 1 + index) lists).map (fun found => (relocated declarator found.1, found.2)) =
      numbered (2 + index) lists := by
  induction lists generalizing index with
  | nil => rfl
  | cons names rest ih =>
    rw [numbered, numbered, List.map_append, Nat.add_assoc (declarator + 1), ih (index + 1), List.map_map]
    congr 1
    apply List.map_congr_left
    intro found _
    simp only [Function.comp_apply, beneath, List.singleton_append, relocated]
    rw [if_pos (by omega), show declarator + 1 + index - declarator + 1 = 2 + index by omega]

section
variable {declaration declarator : Node} {name : String}

theorem carriedOver_of_ne {path : List Nat} (apart : path ≠ declaration.path) (arguments : List String) :
    carriedOver declaration declarator name (path, arguments) =
      some (movedPath declaration declarator path, arguments) :=
  if_neg apart

theorem carriedOver_outside {names : List (List Nat × String)} (outside : ∀ found ∈ names, ¬ declaration.path <+: found.1) :
    (names.map reportOf).filterMap (carriedOver declaration declarator name) = names.map reportOf := by
  rw [List.filterMap_map]
  apply List.filterMap_eq_map_iff_forall_eq_some.mpr
  intro found member
  have apart : found.1 ≠ declaration.path := fun same => outside found member (same ▸ List.prefix_rfl)
  rw [Function.comp_apply, reportOf, carriedOver_of_ne apart, movedPath, if_neg (outside found member)]

theorem carriedOver_inside {names : List (List Nat × String)} (inside : ∀ found ∈ names, found.1 ≠ []) :
    ((names.map (beneath declaration.path)).map reportOf).filterMap (carriedOver declaration declarator name) =
      ((names.map fun found => (relocated declarator.index found.1, found.2)).map (beneath declaration.path)).map
        reportOf := by
  rw [List.filterMap_map, List.filterMap_map, List.map_map, List.map_map]
  apply List.filterMap_eq_map_iff_forall_eq_some.mpr
  intro found member
  have proper : declaration.path ++ found.1 ≠ declaration.path := by simpa using inside found member
  simp only [Function.comp_apply, reportOf, beneath]
  rw [carriedOver_of_ne proper, movedPath, if_pos (List.prefix_append ..), List.drop_left]

/-- The report on the declaration itself. -/
theorem carriedOver_self :
    (([([], name)].map (beneath declaration.path)).map reportOf).filterMap (carriedOver declaration declarator name) =
      ((if Name.isNegated (Name.affirmed name) then [([], Name.affirmed name)] else []).map
        (beneath declaration.path)).map reportOf := by
  have here : carriedOver declaration declarator name (declaration.path, [name]) =
      if Name.isNegated (Name.affirmed name) then some (declaration.path, [Name.affirmed name]) else none :=
    if_pos rfl
  simp only [List.map_cons, List.map_nil, beneath, reportOf, List.append_nil]
  rw [filterMap_cons_toList, here]
  by_cases negated : Name.isNegated (Name.affirmed name) <;> simp [negated, beneath, reportOf]

end

/-- Tokens declare nothing. -/
theorem negations_of_discarded {declaration declarator value : Node} (shape : declaration.tree.WellFormed)
    (first : declaration.firstDeclarator? = some declarator) (initial : declarator.initializer? = some value)
    (bare : ∀ part ∈ discarded declaration, part.isToken) :
    ∀ piece ∈ declaration.tree.children.take declarator.index ++ declarator.tree.children.eraseIdx value.index,
      piece.negations = [] := by
  have pieces : (discarded declaration).map Node.tree =
      declaration.tree.children.take declarator.index ++ declarator.tree.children.eraseIdx value.index := by
    rw [discarded_eq first initial, List.eraseIdx_eq_take_drop_succ, List.eraseIdx_eq_take_drop_succ]
    simp only [List.map_append, List.map_take, List.map_drop, Node.map_tree_children]
  have declaratorShape := shape.child (List.mem_of_getElem? (Node.mem_children (List.mem_of_find?_eq_some first)).2.2)
  rw [← pieces, List.forall_mem_map]
  intro part gone
  refine negations_of_isToken ?_ (bare part gone)
  rcases (mem_discarded first initial).mp gone with ⟨member, _⟩ | ⟨member, _⟩
  · exact shape.child (List.mem_of_getElem? (Node.mem_children member).2.2)
  · exact declaratorShape.child (List.mem_of_getElem? (Node.mem_children member).2.2)

/-- The negated names that are left by the fix. -/
theorem negations_of_ok {tree fixed : Tree} {node : Node} {name : String} (found : Negated tree node name)
    (shape : tree.WellFormed) (done : negatedName tree node.span = .ok fixed)
    (bare : ∀ part ∈ discarded node, part.isToken) :
    ∃ declarator, node.firstDeclarator? = some declarator ∧
      fixed.negations.map reportOf =
        (tree.negations.map reportOf).filterMap (carriedOver node declarator name) := by
  obtain ⟨_, value, literal, unclaimed, rfl⟩ := (negatedName_eq_ok found shape).mp done
  obtain ⟨declarator, initial, first, initialized, _, rfl⟩ := nodes_of_literal? literal
  refine ⟨declarator, first, ?_⟩
  have sound := found.sound shape
  have isDeclarator : declarator.kind = .variableDeclarator := by simpa using List.find?_some first
  have own : node.tree.ownNegation = [([], name)] := by
    rw [ownNegation, found.name_eq]
    rfl
  have before := negations_declaration (Node.mem_children (List.mem_of_find?_eq_some first)).2.2
    (Node.mem_children (Node.mem_of_initializer? initialized)).2.2 isDeclarator
    (negations_of_discarded sound first initialized bare)
  have after := negations_renamed sound literal (Name.affirmed name) node.tree.leading
  obtain ⟨front, back, outside, old, new⟩ := negations_replaceAt found.present sound
  have retained : node.tree.children.drop (declarator.index + 1) = node.tree.others := by
    rw [others, index_firstDeclarator? first]
  rw [own, retained] at before
  rw [negations_negateUses unclaimed (Name.ne_toString found.parts.2.2), renamedAt,
    new _ (replaces_renamed found shape literal), old, before, after]
  -- Of the names in the declaration, first comes its own, then those in the initial value and those behind it.
  have inValue : ∀ other ∈ initial.tree.negations.map (beneath [declarator.index, initial.index]), other.1 ≠ [] := by
    intro other member
    obtain ⟨inner, _, rfl⟩ := List.mem_map.mp member
    simp [beneath]
  have behind : ∀ other ∈ numbered (declarator.index + 1) (node.tree.others.map negations), other.1 ≠ [] := by
    intro other member
    obtain ⟨position, below, split, _⟩ := index_of_mem_numbered member
    rw [split]
    simp
  have moved := relocated_numbered declarator.index 0 (node.tree.others.map negations)
  simp only [List.map_append, List.filterMap_append]
  rw [carriedOver_outside fun other member => outside other (List.mem_append_left _ member),
    carriedOver_outside fun other member => outside other (List.mem_append_right _ member), carriedOver_self,
    carriedOver_inside inValue, carriedOver_inside behind, relocated_value, moved]

end Fix

/-- A fix of the naming rule takes its own report away, or leaves it with the new name if that one is negated again,
and changes no other report of the rule. -/
theorem namings_fixed {rules : List Rule} {tree fixed : Tree} {defect : Defect} (shape : tree.WellFormed)
    (reported : defect ∈ namings rules tree) (done : defect.fixIn tree = .ok fixed)
    (bare : ∀ part ∈ Fix.discarded defect.anchor, part.isToken) :
    ∃ name declarator, defect.arguments = [name] ∧ defect.anchor.firstDeclarator? = some declarator ∧
      (namings rules fixed).map Defect.shown =
        ((namings rules tree).map Defect.shown).filterMap (Fix.carriedOver defect.anchor declarator name) := by
  obtain ⟨detected, isNaming⟩ := List.mem_filter.mp reported
  rcases detect_cases detected with ⟨_, node, name, found, rfl⟩ | ⟨node, receiver, _, rfl⟩
  · rw [FixState.fixIn_negatedName] at done
    obtain ⟨declarator, first, left⟩ := Fix.negations_of_ok found shape done bare
    refine ⟨name, declarator, rfl, first, ?_⟩
    rw [shown_namings, shown_namings, left, filterMap_flatMap_replicate]
  · cases of_decide_eq_true isNaming

def twiceNegated : Tree :=
  .node .compilationUnit
    [.node .variableDeclaration
      [.token .predefinedType "" "bool", .token .comment " " "/* twice */",
        .node .variableDeclarator
          [.token .identifier " " "notNotA", .token .punctuation " " "=", .node .literal [.token .keyword " " "true"]],
        .token .punctuation "" ",",
        .node .variableDeclarator
          [.token .identifier " " "b", .token .punctuation " " "=",
            .node .block
              [.node .variableDeclaration
                [.token .predefinedType " " "bool", .node .variableDeclarator [.token .identifier " " "notC"]]]]],
      .node .variableDeclaration
        [.token .predefinedType "\n" "bool",
          .node .variableDeclarator
            [.token .identifier " " "notD", .token .punctuation " " "=", .token .identifier " " "notNotA"]]]

theorem namings_fixed_twiceNegated :
    ∃ defect fixed declarator, defect ∈ namings Rule.all twiceNegated ∧ defect.fixIn twiceNegated = .ok fixed ∧
      (∀ part ∈ Fix.discarded defect.anchor, part.isToken) ∧ defect.anchor.firstDeclarator? = some declarator ∧
      (namings Rule.all twiceNegated).map Defect.shown =
        [([0], ["notNotA"]), ([0, 4, 2, 0], ["notC"]), ([1], ["notD"])] ∧
      (namings Rule.all fixed).map Defect.shown = [([0], ["NotA"]), ([0, 3, 2, 0], ["notC"]), ([1], ["notD"])] := by
  have shape : twiceNegated.WellFormed := by
    simp [twiceNegated, Tree.WellFormed, Tree.AllWellFormed, Kind.isToken]
  have computed : ((detect Rule.all twiceNegated)[0]?.map fun defect =>
      (defect.rule, (defect.fixIn twiceNegated).toOption.isSome)) = some (.negatedName, true) := by
    decide +kernel
  obtain ⟨defect, fixed, known, rule, done⟩ := exists_fixed computed
  have reported : defect ∈ namings Rule.all twiceNegated :=
    List.mem_filter.mpr ⟨List.mem_of_getElem? known, decide_eq_true rule⟩
  have shown : ((detect Rule.all twiceNegated)[0]?.map fun defect =>
      ((Fix.discarded defect.anchor).all Node.isToken, defect.arguments, defect.anchor.path,
        defect.anchor.firstDeclarator?.map Node.index)) = some (true, ["notNotA"], [0], some 2) := by
    decide +kernel
  rw [known, Option.map_some, Option.some_inj, Prod.mk.injEq, Prod.mk.injEq, Prod.mk.injEq, List.all_eq_true] at shown
  obtain ⟨bare, argument, place, position⟩ := shown
  obtain ⟨name, declarator, spoken, first, left⟩ := namings_fixed shape reported done bare
  rw [first, Option.map_some, Option.some_inj] at position
  obtain rfl : name = "notNotA" := by simpa using spoken.symm.trans argument
  have before : (namings Rule.all twiceNegated).map Defect.shown =
      [([0], ["notNotA"]), ([0, 4, 2, 0], ["notC"]), ([1], ["notD"])] := by
    decide +kernel
  refine ⟨defect, fixed, declarator, reported, done, bare, first, before, ?_⟩
  rw [left, before]
  simp only [List.filterMap_cons, List.filterMap_nil, Fix.carriedOver, Fix.movedPath, Fix.relocated, place, position]
  decide +kernel

end TreeLint
