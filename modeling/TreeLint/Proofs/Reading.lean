import TreeLint.Fix.Negation
import TreeLint.Fix.ToString
import TreeLint.Proofs.Subtrees

/-! What rules and fixes read of a declaration or a class, said of the subtree alone. Each reading
agrees with the one made at a place in a tree, and each can be made on the sketch instead. -/

namespace TreeLint

namespace Tree

def declarator? (tree : Tree) : Option Tree :=
  tree.children.find? fun child => child.kind = .variableDeclarator

def ownName? (tree : Tree) : Option String :=
  (tree.children.find? fun child => child.kind = .identifier).map spelling

def declaredName? (tree : Tree) : Option String :=
  tree.declarator?.bind ownName?

def isBool (tree : Tree) : Bool :=
  match tree.children[0]? with
  | some type => type.kind = .predefinedType && type.spelling = "bool"
  | none => false

def isEquals (tree : Tree) : Bool :=
  tree.kind = .punctuation && tree.spelling = "="

def initializer? (tree : Tree) : Option Tree :=
  (tree.children.dropWhile fun child => !child.isEquals)[1]?

def isLiteral (tree : Tree) : Bool :=
  tree.kind = .literal || tree.kind = .literalToken

def literal? (tree : Tree) : Option Tree :=
  (tree.declarator?.bind initializer?).filter isLiteral

/-- The name that a declarator or a parameter introduces. -/
def introduced? (tree : Tree) : Option String :=
  match tree.kind with
  | .variableDeclarator => tree.ownName?
  | .parameter =>
    ((tree.children.takeWhile fun child => !child.isEquals).filter fun child =>
      child.kind = .identifier).getLast?.map spelling
  | _ => none

def body? (tree : Tree) : Option Tree :=
  tree.children.find? fun child => child.kind = .declarationList

def isBrace (tree : Tree) : Bool :=
  tree.kind = .punctuation && tree.spelling = "\x7d"

def isClosed (tree : Tree) : Bool :=
  tree.body?.any fun body => body.children.any isBrace

def bracketed (tree : Tree) : Bool :=
  tree.body?.all fun body => !body.children.any isBrace || body.children.getLast?.any isBrace

def methodName? (tree : Tree) : Option String :=
  match tree.children.findIdx? fun child => child.kind = .parameterList with
  | some (index + 1) => (tree.children[index]?.filter fun child => child.kind = .identifier).map spelling
  | _ => none

def isMethodNamed (name : String) (tree : Tree) : Bool :=
  tree.kind = .methodDeclaration && tree.methodName? = some name

def declares (name : String) (tree : Tree) : Bool :=
  tree.body?.any fun body => body.children.any (isMethodNamed name)

section
variable (tree : Tree)

@[simp] theorem isEquals_glimpse : tree.glimpse.isEquals = tree.isEquals := by
  simp [isEquals]

@[simp] theorem isLiteral_glimpse : tree.glimpse.isLiteral = tree.isLiteral := by
  simp [isLiteral]

@[simp] theorem isBrace_glimpse : tree.glimpse.isBrace = tree.isBrace := by
  simp [isBrace]

theorem find?_children_sketch (kind : Kind) :
    (tree.sketch.children.find? fun child => child.kind = kind) =
      (tree.children.find? fun child => child.kind = kind).map glimpse := by
  rw [children_sketch, List.find?_map]
  congr 2
  funext child
  simp

@[simp] theorem isBool_sketch : tree.sketch.isBool = tree.isBool := by
  rw [isBool, isBool, children_sketch, List.getElem?_map]
  cases tree.children[0]? <;> simp

@[simp] theorem ownName?_sketch : tree.sketch.ownName? = tree.ownName? := by
  rw [ownName?, find?_children_sketch, Option.map_map, ownName?]
  congr 1
  funext child
  simp

theorem kind_of_find? {trees : List Tree} {kind : Kind} {found : Tree}
    (search : trees.find? (fun child => child.kind = kind) = some found) : found.kind = kind := by
  simpa using List.find?_some search

@[simp] theorem declaredName?_sketch : tree.sketch.declaredName? = tree.declaredName? := by
  rw [declaredName?, declaredName?, declarator?, declarator?, find?_children_sketch]
  cases search : tree.children.find? fun child => child.kind = .variableDeclarator with
  | none => rfl
  | some declarator =>
    rw [Option.map_some, Option.bind_some, Option.bind_some,
      glimpse_eq_sketch (by rw [kind_of_find? search]; rfl), ownName?_sketch]

theorem initializer?_sketch : tree.sketch.initializer? = tree.initializer?.map glimpse := by
  rw [initializer?, initializer?, children_sketch, List.dropWhile_map, List.getElem?_map]
  congr 3
  funext child
  simp

@[simp] theorem isSome_literal?_sketch : tree.sketch.literal?.isSome = tree.literal?.isSome := by
  rw [literal?, literal?, declarator?, declarator?, find?_children_sketch]
  cases search : tree.children.find? fun child => child.kind = .variableDeclarator with
  | none => rfl
  | some declarator =>
    rw [Option.map_some, Option.bind_some, Option.bind_some,
      glimpse_eq_sketch (by rw [kind_of_find? search]; rfl), initializer?_sketch]
    cases declarator.initializer? with
    | none => rfl
    | some value => by_cases literal : value.isLiteral <;> simp [Option.filter, literal]

@[simp] theorem introduced?_sketch : tree.sketch.introduced? = tree.introduced? := by
  have same : (fun child : Tree => !child.isEquals) ∘ glimpse = fun child => !child.isEquals := by
    funext child
    simp
  have sameKind : (fun child : Tree => decide (child.kind = .identifier)) ∘ glimpse =
      fun child => decide (child.kind = .identifier) := by
    funext child
    simp
  have sameText : spelling ∘ glimpse = spelling := by
    funext child
    simp
  rw [introduced?, introduced?, kind_sketch, ownName?_sketch, children_sketch, List.takeWhile_map,
    List.filter_map, List.getLast?_map, Option.map_map, same, sameKind, sameText]

@[simp] theorem isClosed_sketch : tree.sketch.isClosed = tree.isClosed := by
  rw [isClosed, isClosed, body?, body?, find?_children_sketch]
  cases search : tree.children.find? fun child => child.kind = .declarationList with
  | none => rfl
  | some body =>
    rw [Option.map_some, Option.any_some, Option.any_some,
      glimpse_eq_sketch (by rw [kind_of_find? search]; rfl), children_sketch, List.any_map]
    congr 1
    funext child
    simp

private theorem methodName?_sketch : tree.sketch.methodName? = tree.methodName? := by
  have same : (fun child : Tree => decide (child.kind = .parameterList)) ∘ glimpse =
      fun child => decide (child.kind = .parameterList) := by
    funext child
    simp
  rw [methodName?, methodName?, children_sketch, List.findIdx?_map, same]
  split
  next index found =>
    rw [List.getElem?_map]
    cases tree.children[index]? with
    | none => rfl
    | some child => by_cases name : child.kind = .identifier <;> simp [Option.filter, name]
  next => rfl

theorem isMethodNamed_glimpse (name : String) : tree.glimpse.isMethodNamed name = tree.isMethodNamed name := by
  by_cases method : tree.kind = .methodDeclaration
  · rw [glimpse_eq_sketch (by rw [method]; rfl), isMethodNamed, isMethodNamed, kind_sketch, methodName?_sketch]
  · simp [isMethodNamed, method]

@[simp] theorem declares_sketch (name : String) : tree.sketch.declares name = tree.declares name := by
  rw [declares, declares, body?, body?, find?_children_sketch]
  cases search : tree.children.find? fun child => child.kind = .declarationList with
  | none => rfl
  | some body =>
    rw [Option.map_some, Option.any_some, Option.any_some,
      glimpse_eq_sketch (by rw [kind_of_find? search]; rfl), children_sketch, List.any_map]
    congr 1
    funext child
    simp [isMethodNamed_glimpse]

end

end Tree

/-- All that decides whether a rule reports on a landmark and whether its fix is refused there. -/
inductive Role where
  | declaration (isBool : Bool) (name : Option String) (literal : Bool)
  | definition (closed complete : Bool)
  | other

namespace Role

def negated? : Role → Option String
  | declaration true name _ => name.filter Name.isNegated
  | _ => none

def isDeclaration : Role → Bool
  | declaration .. => true
  | _ => false

def isDefinition : Role → Bool
  | definition .. => true
  | _ => false

def definitions (role : Role) : Nat :=
  role.isDefinition.toNat

end Role

namespace Tree

def role (tree : Tree) : Role :=
  match tree.kind with
  | .variableDeclaration => .declaration tree.isBool tree.declaredName? tree.literal?.isSome
  | .classDeclaration => .definition tree.isClosed (tree.declares toStringName)
  | _ => .other

@[simp] theorem role_sketch (tree : Tree) : tree.sketch.role = tree.role := by
  simp [role]

theorem role_withLeading {tree : Tree} (shape : tree.WellFormed) (trivia : String) :
    (tree.withLeading trivia).role = tree.role := by
  rw [← role_sketch, sketch_withLeading shape, role_sketch]

theorem role_declaration {tree : Tree} (kind : tree.kind = .variableDeclaration) :
    tree.role = .declaration tree.isBool tree.declaredName? tree.literal?.isSome := by
  rw [role, kind]

theorem role_definition {tree : Tree} (kind : tree.kind = .classDeclaration) :
    tree.role = .definition tree.isClosed (tree.declares toStringName) := by
  rw [role, kind]

theorem role_other {tree : Tree} (plain : tree.kind.isLandmark = false) : tree.role = .other := by
  rw [role]
  cases same : tree.kind <;> simp_all [Kind.isLandmark]

/-- The role of what stands at a place; a place that is not there has nothing to read. -/
def roleAt (tree : Tree) (path : List Nat) : Role :=
  ((tree.get? path).map role).getD .other

theorem roleAt_eq {tree found : Tree} {path : List Nat} (present : tree.get? path = some found) :
    tree.roleAt path = found.role := by
  rw [roleAt, present]
  rfl

@[simp] theorem roleAt_nil (tree : Tree) : tree.roleAt [] = tree.role :=
  roleAt_eq (get?_nil tree)

theorem get?_of_isDeclaration {tree : Tree} {path : List Nat} (declared : (tree.roleAt path).isDeclaration) :
    ∃ found, tree.get? path = some found ∧ found.kind = .variableDeclaration := by
  rw [roleAt] at declared
  cases present : tree.get? path with
  | none => rw [present] at declared; cases declared
  | some found =>
    refine ⟨found, rfl, ?_⟩
    rw [present, Option.map_some, Option.getD_some, role] at declared
    split at declared
    next kind => exact kind
    next => cases declared
    next => cases declared

theorem get?_of_isDefinition {tree : Tree} {path : List Nat} (defined : (tree.roleAt path).isDefinition) :
    ∃ found, tree.get? path = some found ∧ found.kind = .classDeclaration := by
  rw [roleAt] at defined
  cases present : tree.get? path with
  | none => rw [present] at defined; cases defined
  | some found =>
    refine ⟨found, rfl, ?_⟩
    rw [present, Option.map_some, Option.getD_some, role] at defined
    split at defined
    next => cases defined
    next kind => exact kind
    next => cases defined

theorem roleAt_cons (tree : Tree) (index : Nat) (path : List Nat) :
    tree.roleAt (index :: path) =
      ((tree.children.map fun child => child.roleAt path)[index]?).getD .other := by
  rw [roleAt, get?_cons, List.getElem?_map]
  cases tree.children[index]? <;> rfl

theorem roleAt_append {tree found : Tree} {path : List Nat} (present : tree.get? path = some found)
    (below : List Nat) : tree.roleAt (path ++ below) = found.roleAt below := by
  rw [roleAt, get?_append, present]
  rfl

theorem roleAt_withLeading {tree : Tree} (shape : tree.WellFormed) (trivia : String) (path : List Nat) :
    (tree.withLeading trivia).roleAt path = tree.roleAt path := by
  induction path generalizing tree with
  | nil => rw [roleAt_nil, roleAt_nil, role_withLeading shape]
  | cons index path ih =>
    rw [roleAt_cons, roleAt_cons]
    cases tree with
    | token kind leading text =>
      simp only [WellFormed] at shape
      simp [withLeading, shape]
    | node kind children =>
      obtain ⟨inner, below⟩ := (wellFormed_node kind children).mp shape
      simp only [withLeading, inner, Bool.false_eq_true, if_false, children_node]
      rw [map_withLeadingFirst (fun child : Tree => child.roleAt path) (fun child member => ih (below child member))]

theorem roleAt_replaceAt_below {tree found : Tree} {path : List Nat} (present : tree.get? path = some found)
    (replacement : Tree) (below : List Nat) :
    (tree.replaceAt path replacement).roleAt (path ++ below) = replacement.roleAt below := by
  rw [roleAt, get?_replaceAt_below present, roleAt]

/-- A replaced landmark shows nowhere but at its place and below. -/
theorem map_get?_replaceAt {α : Type} {read : Tree → α} (sketched : ∀ tree, read tree.sketch = read tree)
    {tree found replacement : Tree} {path place : List Nat} (present : tree.get? path = some found)
    (shape : found.WellFormed) (fits : Replaces replacement found) (elsewhere : ¬ path <+: place) :
    ((tree.replaceAt path replacement).get? place).map read = (tree.get? place).map read := by
  by_cases above : place <+: path
  · obtain ⟨below, rfl⟩ := above
    rw [get?_append, Option.bind_eq_some_iff] at present
    obtain ⟨around, known, inside⟩ := present
    have proper : below ≠ [] := by
      rintro rfl
      simp at elsewhere
    rw [get?_replaceAt_above known below replacement, known, Option.map_some, Option.map_some, ← sketched,
      sketch_replaceAt proper inside shape fits, sketched]
  · rw [get?_replaceAt_apart ⟨elsewhere, above⟩]

theorem roleAt_replaceAt {tree found replacement : Tree} {path place : List Nat}
    (present : tree.get? path = some found) (shape : found.WellFormed) (fits : Replaces replacement found)
    (elsewhere : ¬ path <+: place) : (tree.replaceAt path replacement).roleAt place = tree.roleAt place := by
  rw [roleAt, roleAt, map_get?_replaceAt role_sketch present shape fits elsewhere]

end Tree

def Kind.isNaming : Kind → Bool
  | .variableDeclaration | .classDeclaration | .variableDeclarator | .parameter => true
  | _ => false

namespace Tree

/-- A weight that is read off the sketch and rests on nodes that name something. -/
structure Weight (weigh : Tree → Nat) : Prop where
  sketched : Sketched weigh
  light : ∀ tree : Tree, tree.kind.isNaming = false → weigh tree = 0

def Plain (tree : Tree) : Prop :=
  ∀ found ∈ tree.subtrees, found.kind.isNaming = false

theorem tally_of_plain {weigh : Tree → Nat} (weight : Weight weigh) {tree : Tree} (plain : tree.Plain) :
    tally weigh tree = 0 :=
  tally_eq_zero.mpr fun found member => weight.light found (plain found member)

theorem roleAt_of_plain {tree : Tree} (plain : tree.Plain) (path : List Nat) : tree.roleAt path = .other := by
  rw [roleAt]
  cases present : tree.get? path with
  | none => rfl
  | some found =>
    have named := plain found (mem_subtrees.mpr ⟨path, present⟩)
    rw [Option.map_some, Option.getD_some, role_other]
    cases same : found.kind <;> simp_all [Kind.isNaming, Kind.isLandmark]

theorem plain_token {kind : Kind} (leading text : String) (plain : kind.isNaming = false) :
    (token kind leading text).Plain := by
  intro found member
  rw [subtrees, List.mem_singleton] at member
  rw [member]
  exact plain

theorem plain_node {kind : Kind} {children : List Tree} :
    (node kind children).Plain ↔ kind.isNaming = false ∧ ∀ child ∈ children, child.Plain := by
  simp only [Plain, subtrees_eq (node kind children), children_node, List.forall_mem_cons, kind_node, List.mem_flatMap]
  constructor
  · intro ⟨here, below⟩
    exact ⟨here, fun child member found inside => below found ⟨child, member, inside⟩⟩
  · intro ⟨here, below⟩
    exact ⟨here, fun found ⟨child, member, inside⟩ => below child member found inside⟩

def namingWeight (tree : Tree) : Nat :=
  tree.kind.isNaming.toNat

theorem weight_namingWeight : Weight namingWeight :=
  ⟨fun tree => by rw [namingWeight, kind_sketch, namingWeight], fun tree plain => by rw [namingWeight, plain]; rfl⟩

theorem plain_iff_tally {tree : Tree} : tree.Plain ↔ tally namingWeight tree = 0 := by
  rw [tally_eq_zero]
  refine forall_congr' fun found => forall_congr' fun _ => ?_
  rw [namingWeight]
  cases found.kind.isNaming <;> simp

theorem Plain.withLeading {tree : Tree} (plain : tree.Plain) (shape : tree.WellFormed) (trivia : String) :
    (tree.withLeading trivia).Plain := by
  rw [plain_iff_tally, tally_withLeading weight_namingWeight.sketched shape]
  exact plain_iff_tally.mp plain

/-- A weight read off the role. -/
theorem weight_of_role {weigh : Role → Nat} (none : weigh .other = 0) : Weight fun tree => weigh tree.role := by
  refine ⟨fun tree => by rw [role_sketch], ?_⟩
  intro tree plain
  have other : tree.kind.isLandmark = false := by
    cases same : tree.kind <;> simp_all [Kind.isNaming, Kind.isLandmark]
  rw [role_other other, none]

/-- A weight that rests nowhere is zero at every place. -/
theorem tally_role_eq_zero {weigh : Role → Nat} (none : weigh .other = 0) {tree : Tree} :
    tally (fun tree => weigh tree.role) tree = 0 ↔ ∀ path, weigh (tree.roleAt path) = 0 := by
  rw [tally_eq_zero]
  constructor
  · intro each path
    rw [roleAt]
    cases present : tree.get? path with
    | none => exact none
    | some found => exact each found (mem_subtrees.mpr ⟨path, present⟩)
  · intro each found member
    obtain ⟨path, present⟩ := mem_subtrees.mp member
    rw [← roleAt_eq present]
    exact each path

def claims (name : String) (tree : Tree) : Nat :=
  if tree.introduced? = some name then 1 else 0

theorem weight_claims (name : String) : Weight (claims name) := by
  refine ⟨fun tree => by rw [claims, introduced?_sketch, claims], ?_⟩
  intro tree plain
  rw [claims, introduced?]
  cases same : tree.kind <;> simp_all [Kind.isNaming]

end Tree

namespace Node
open TreeLint.Tree

theorem children_getElem? (node : Node) (index : Nat) :
    node.children[index]? = (node.tree.children[index]?).map fun child => ⟨node.root, node.path ++ [index], child⟩ := by
  rw [children, List.getElem?_mapIdx]

theorem map_tree_children (node : Node) : node.children.map Node.tree = node.tree.children := by
  apply List.ext_getElem?
  intro index
  rw [List.getElem?_map, children_getElem?, Option.map_map]
  cases node.tree.children[index]? <;> rfl

/-- A child knows its index, and stands there. -/
theorem mem_children {node child : Node} (member : child ∈ node.children) :
    child.root = node.root ∧ child.path = node.path ++ [child.index] ∧
      node.tree.children[child.index]? = some child.tree := by
  obtain ⟨index, known⟩ := List.getElem?_of_mem member
  rw [children_getElem?, Option.map_eq_some_iff] at known
  obtain ⟨tree, present, rfl⟩ := known
  simp [Node.index, present]

theorem eq_of_path {node child other : Node} (member : child ∈ node.children) (present : other ∈ node.children)
    (same : child.path = other.path) : child = other := by
  obtain ⟨index, known⟩ := List.getElem?_of_mem member
  obtain ⟨place, found⟩ := List.getElem?_of_mem present
  rw [children_getElem?, Option.map_eq_some_iff] at known found
  obtain ⟨tree, here, rfl⟩ := known
  obtain ⟨piece, there, rfl⟩ := found
  have equal : index = place := by simpa using same
  rw [equal, there] at here
  cases here
  rw [equal]

theorem Valid.child {node child : Node} (valid : node.Valid) (member : child ∈ node.children) : child.Valid := by
  obtain ⟨sameRoot, path, known⟩ := mem_children member
  rw [Valid, sameRoot, path]
  exact get?_concat valid known

theorem map_tree_find? (node : Node) (wanted : Tree → Bool) :
    (node.children.find? fun child => wanted child.tree).map Node.tree = node.tree.children.find? wanted := by
  rw [← map_tree_children, List.find?_map]
  rfl

variable (node : Node)

theorem map_tree_childOfKind? (kind : Kind) :
    (node.childOfKind? kind).map Node.tree = node.tree.children.find? fun child => child.kind = kind :=
  map_tree_find? node fun child => child.kind = kind

theorem map_tree_firstDeclarator? : node.firstDeclarator?.map Node.tree = node.tree.declarator? :=
  map_tree_childOfKind? node .variableDeclarator

theorem map_spelling_declaratorName? : node.declaratorName?.map spelling = node.tree.ownName? := by
  rw [ownName?, ← map_tree_childOfKind? node .identifier, Option.map_map]
  rfl

theorem declaredName?_eq : node.declaredName? = node.tree.declaredName? := by
  rw [declaredName?, Tree.declaredName?, ← map_tree_firstDeclarator?]
  cases node.firstDeclarator? with
  | none => rfl
  | some declarator => exact map_spelling_declaratorName? declarator

theorem isBool_eq : node.isBool = node.tree.isBool := by
  rw [isBool, Tree.isBool, declaredType?, child?, children_getElem?]
  cases node.tree.children[0]? with
  | none => rfl
  | some type =>
    simp only [Option.map_some, Option.filter]
    by_cases isType : type.kind.isType = true
    · simp [Node.kind, isType, Node.spelling]
      rfl
    · have other : type.kind ≠ .predefinedType := by
        intro same
        rw [same] at isType
        exact isType rfl
      simp [Node.kind, isType, other]

theorem mem_of_initializer? {declarator value : Node} (initial : declarator.initializer? = some value) :
    value ∈ declarator.children :=
  (List.dropWhile_sublist _).subset (List.mem_of_getElem? initial)

theorem map_tree_initializer? : node.initializer?.map Node.tree = node.tree.initializer? := by
  rw [initializer?, Tree.initializer?, ← map_tree_children, List.dropWhile_map, List.getElem?_map]
  rfl

theorem map_tree_literal? :
    (node.firstDeclarator?.bind fun declarator => declarator.initializer?.filter Node.isLiteral).map Node.tree =
      node.tree.literal? := by
  rw [literal?, ← map_tree_firstDeclarator?]
  cases node.firstDeclarator? with
  | none => rfl
  | some declarator =>
    rw [Option.bind_some, Option.map_some, Option.bind_some, ← map_tree_initializer?]
    cases declarator.initializer? with
    | none => rfl
    | some value =>
      have same : value.isLiteral = value.tree.isLiteral := rfl
      by_cases literal : value.tree.isLiteral <;> simp [Option.filter, literal, same]

theorem map_spelling_introducedName? : node.introducedName?.map spelling = node.tree.introduced? := by
  have same : (node.beforeDefault.filter fun child => child.kind = .identifier).getLast?.map spelling =
      ((node.tree.children.takeWhile fun child => !child.isEquals).filter fun child =>
        child.kind = .identifier).getLast?.map Tree.spelling := by
    rw [beforeDefault, ← map_tree_children, List.takeWhile_map, List.filter_map, List.getLast?_map, Option.map_map]
    rfl
  rw [introducedName?, introduced?, Node.kind]
  cases node.tree.kind <;> first | rfl | exact same | exact map_spelling_declaratorName? node

theorem introducedName?_mem {name : Node} (introduced : node.introducedName? = some name) :
    name ∈ node.children ∧ name.kind = .identifier := by
  rw [introducedName?] at introduced
  split at introduced
  next =>
    exact ⟨List.mem_of_find?_eq_some introduced, by simpa using List.find?_some introduced⟩
  next =>
    have member := List.mem_of_getLast? introduced
    rw [List.mem_filter] at member
    exact ⟨(List.takeWhile_sublist _).subset member.1, by simpa using member.2⟩
  next => cases introduced

theorem map_tree_classBody? : node.classBody?.map Node.tree = node.tree.body? :=
  map_tree_childOfKind? node .declarationList

theorem index_of_getElem? {child : Node} {index : Nat} (known : node.children[index]? = some child) :
    child.index = index := by
  rw [children_getElem?, Option.map_eq_some_iff] at known
  obtain ⟨tree, _, rfl⟩ := known
  simp [Node.index]

theorem getElem?_index {child : Node} (member : child ∈ node.children) : node.children[child.index]? = some child := by
  obtain ⟨position, known⟩ := List.getElem?_of_mem member
  rwa [index_of_getElem? node known]

theorem map_index_childOfKind? (kind : Kind) :
    (node.childOfKind? kind).map Node.index = node.tree.children.findIdx? fun child => child.kind = kind := by
  rw [childOfKind?, ← map_tree_children, List.findIdx?_map]
  cases search : node.children.find? fun child => child.kind = kind with
  | none =>
    rw [List.find?_eq_none] at search
    rw [Option.map_none, eq_comm, List.findIdx?_eq_none_iff]
    intro child member
    have other : child.kind ≠ kind := by simpa using search child member
    exact decide_eq_false other
  | some found =>
    obtain ⟨wanted, front, behind, split, early⟩ := List.find?_eq_some_iff_append.mp search
    have here : node.children[front.length]? = some found := by rw [split]; simp
    rw [Option.map_some, index_of_getElem? node here, eq_comm, split, List.findIdx?_append]
    have passed : front.findIdx? ((fun child : Tree => decide (child.kind = kind)) ∘ Node.tree) = none := by
      rw [List.findIdx?_eq_none_iff]
      intro child member
      have other : child.kind ≠ kind := by simpa using early child member
      exact decide_eq_false other
    have same : found.tree.kind = kind := of_decide_eq_true wanted
    rw [passed, List.findIdx?_cons, Function.comp_apply, if_pos (decide_eq_true same)]
    simp

theorem methodName?_eq : node.methodName? = node.tree.methodName? := by
  rw [methodName?, Tree.methodName?, ← map_index_childOfKind?]
  cases node.childOfKind? .parameterList with
  | none => rfl
  | some parameters =>
    simp only [Option.map_some, Option.bind_eq_bind, Option.bind_some, child?, children_getElem?]
    cases parameters.index with
    | zero => rfl
    | succ index =>
      simp only [Nat.add_one_ne_zero, if_false, Nat.add_sub_cancel]
      cases node.tree.children[index]? with
      | none => rfl
      | some child =>
        by_cases name : child.kind = .identifier <;> simp [Node.kind, name, Node.spelling, Option.filter]

theorem declaresMethod_eq (name : String) : node.declaresMethod name = node.tree.declares name := by
  rw [declaresMethod, classMembers, declares, ← map_tree_classBody?]
  cases node.classBody? with
  | none => rfl
  | some body =>
    rw [Option.map_some, Option.any_some, ← map_tree_children, List.any_map, List.any_filter]
    congr 1
    funext child
    rw [Function.comp_apply, isMethodNamed, methodName?_eq, Node.kind, Node.isToken, Tree.isToken]
    by_cases method : child.tree.kind = .methodDeclaration
    · simp [method, Kind.isToken]
    · simp [method]

end Node

end TreeLint
