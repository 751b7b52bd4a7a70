import TreeLint.Proofs.Reading

/-! What a lookup reads of the nodes it meets: the name and type of a declaration, the name and base of a
class, the receiver and member of an access. All of it shows in the sketch of the node. -/

namespace TreeLint

namespace Tree

def constructedType? (tree : Tree) : Option String := do
  let declarator ← tree.declarator?
  let value ← declarator.initializer?
  if value.kind = .objectCreation then
    let type ← value.children.find? fun child => child.kind.isType
    type.typeName?
  else none

def baseName? (tree : Tree) : Option String := do
  let bases ← tree.children.find? fun child => child.kind = .baseList
  let base ← bases.children.find? fun child => child.kind = .baseTypeReference
  let type ← (base.children.find? fun child => !child.isToken).or base.children[0]?
  type.typeName?

def receiverName? (tree : Tree) : Option String :=
  (tree.children[0]?.filter fun child => child.kind = .identifier).map spelling

def memberName? (tree : Tree) : Option String :=
  (tree.children.tail.filter fun child => child.kind = .identifier).getLast?.map spelling

private theorem lastTypeName?_map {trees : List Tree} {view : Tree → Tree} (kinds : ∀ tree : Tree, (view tree).kind = tree.kind)
    (names : ∀ tree ∈ trees, (view tree).typeName? = tree.typeName?) :
    lastTypeName? (trees.map view) = lastTypeName? trees := by
  have part (tree : Tree) : (view tree).isNamePart = tree.isNamePart := by
    rw [isNamePart, isNamePart, kinds]
  induction trees with
  | nil => rfl
  | cons tree rest ih =>
    have later := ih fun other member => names other (by simp [member])
    have some : (rest.map view).any isNamePart = rest.any isNamePart := by
      rw [List.any_map]
      congr 1
      funext other
      exact part other
    rw [List.map_cons, lastTypeName?, lastTypeName?, some, later, part, names tree (by simp)]

@[simp] theorem typeName?_glimpse (tree : Tree) : tree.glimpse.typeName? = tree.typeName? := by
  induction tree with
  | token kind leading text => cases kind <;> rfl
  | node kind children ih =>
    by_cases landmark : kind.isLandmark = true
    · rw [glimpse, if_pos landmark]
      cases kind <;> first | rfl | cases landmark
    · rw [glimpse, if_neg landmark, glimpses_eq_map]
      cases kind with
      | genericName =>
        simp only [typeName?, List.find?_map, Option.map_map, Function.comp_def, kind_glimpse, spelling_glimpse]
      | qualifiedName =>
        simp only [typeName?]
        exact lastTypeName?_map kind_glimpse ih
      | variableDeclaration => exact absurd rfl landmark
      | classDeclaration => exact absurd rfl landmark
      | _ => rfl

section
variable (tree : Tree)

private theorem find?_glimpse (trees : List Tree) (wanted : Kind → Bool) :
    ((trees.map glimpse).find? fun child => wanted child.kind) =
      (trees.find? fun child => wanted child.kind).map glimpse := by
  rw [List.find?_map]
  congr 2
  funext child
  simp

@[simp] theorem constructedType?_sketch : tree.sketch.constructedType? = tree.constructedType? := by
  rw [constructedType?, constructedType?, declarator?, declarator?, find?_children_sketch]
  cases search : tree.children.find? fun child => child.kind = .variableDeclarator with
  | none => rfl
  | some declarator =>
    have plain : declarator.glimpse = declarator.sketch := glimpse_eq_sketch (by rw [kind_of_find? search]; rfl)
    simp only [Option.map_some, Option.bind_eq_bind, Option.bind_some, plain, initializer?_sketch]
    cases declarator.initializer? with
    | none => rfl
    | some value =>
      simp only [Option.map_some, Option.bind_some, kind_glimpse]
      by_cases creation : value.kind = .objectCreation
      · rw [if_pos creation, if_pos creation, glimpse_eq_sketch (by rw [creation]; rfl), children_sketch,
          find?_glimpse value.children Kind.isType]
        cases value.children.find? fun child => child.kind.isType with
        | none => rfl
        | some type => exact typeName?_glimpse type
      · rw [if_neg creation, if_neg creation]

@[simp] theorem baseName?_sketch : tree.sketch.baseName? = tree.baseName? := by
  rw [baseName?, baseName?, find?_children_sketch]
  cases bases : tree.children.find? fun child => child.kind = .baseList with
  | none => rfl
  | some list =>
    simp only [Option.map_some, Option.bind_eq_bind, Option.bind_some]
    rw [glimpse_eq_sketch (by rw [kind_of_find? bases]; rfl), find?_children_sketch]
    cases entry : list.children.find? fun child => child.kind = .baseTypeReference with
    | none => rfl
    | some base =>
      simp only [Option.map_some, Option.bind_some]
      rw [glimpse_eq_sketch (by rw [kind_of_find? entry]; rfl), children_sketch]
      rw [show (fun child : Tree => !child.isToken) = fun child => !child.kind.isToken from rfl,
        find?_glimpse base.children fun kind => !kind.isToken, List.getElem?_map]
      cases base.children.find? fun child => !child.kind.isToken with
      | none =>
        cases base.children[0]? with
        | none => rfl
        | some type => exact typeName?_glimpse type
      | some type => exact typeName?_glimpse type

@[simp] theorem receiverName?_sketch : tree.sketch.receiverName? = tree.receiverName? := by
  rw [receiverName?, receiverName?, children_sketch, List.getElem?_map]
  cases tree.children[0]? with
  | none => rfl
  | some child => by_cases name : child.kind = .identifier <;> simp [Option.filter, name]

@[simp] theorem memberName?_sketch : tree.sketch.memberName? = tree.memberName? := by
  have sameKind : (fun child : Tree => decide (child.kind = .identifier)) ∘ glimpse =
      fun child => decide (child.kind = .identifier) := by
    funext child
    simp
  have sameText : spelling ∘ glimpse = spelling := by
    funext child
    simp
  rw [memberName?, memberName?, children_sketch, ← List.map_tail, List.filter_map, List.getLast?_map, Option.map_map,
    sameKind, sameText]

end

end Tree

/-- All that a lookup reads of a node. -/
inductive Signature where
  | variable (isBool : Bool) (name constructed : Option String)
  | definition (name base : Option String)
  | access (receiver member : Option String)
  | none

def Kind.isSubject : Kind → Bool
  | .variableDeclaration | .classDeclaration | .memberAccess => true
  | _ => false

namespace Tree

def signature (tree : Tree) : Signature :=
  match tree.kind with
  | .variableDeclaration => .variable tree.isBool tree.declaredName? tree.constructedType?
  | .classDeclaration => .definition tree.ownName? tree.baseName?
  | .memberAccess => .access tree.receiverName? tree.memberName?
  | _ => .none

@[simp] theorem signature_sketch (tree : Tree) : tree.sketch.signature = tree.signature := by
  simp [signature]

theorem signature_eq_of_sketch {first second : Tree} (same : first.sketch = second.sketch) :
    first.signature = second.signature := by
  rw [← signature_sketch first, same, signature_sketch]

theorem signature_of_other {tree : Tree} (other : tree.kind.isSubject = false) : tree.signature = .none := by
  rw [signature]
  cases same : tree.kind <;> simp_all [Kind.isSubject]

section
variable {first second : Tree}

theorem kind_eq_of_signature {kind : Kind} (same : first.signature = second.signature) (subject : kind.isSubject = true) :
    first.kind = kind ↔ second.kind = kind := by
  rw [signature, signature] at same
  split at same <;> split at same <;> cases kind <;> simp_all [Kind.isSubject]

theorem isSubject_eq_of_signature (same : first.signature = second.signature) :
    first.kind.isSubject = second.kind.isSubject := by
  rw [signature, signature] at same
  split at same <;> split at same <;> simp_all [Kind.isSubject]

theorem variable_of_signature (same : first.signature = second.signature) (kind : second.kind = .variableDeclaration) :
    first.isBool = second.isBool ∧ first.declaredName? = second.declaredName? ∧
      first.constructedType? = second.constructedType? := by
  have other := (kind_eq_of_signature same rfl).mpr kind
  simpa only [signature, other, kind, Signature.variable.injEq] using same

theorem definition_of_signature (same : first.signature = second.signature) (kind : second.kind = .classDeclaration) :
    first.ownName? = second.ownName? ∧ first.baseName? = second.baseName? := by
  have other := (kind_eq_of_signature same rfl).mpr kind
  simpa only [signature, other, kind, Signature.definition.injEq] using same

theorem access_of_signature (same : first.signature = second.signature) (kind : second.kind = .memberAccess) :
    first.receiverName? = second.receiverName? ∧ first.memberName? = second.memberName? := by
  have other := (kind_eq_of_signature same rfl).mpr kind
  simpa only [signature, other, kind, Signature.access.injEq] using same

end

end Tree

namespace Node
open TreeLint.Tree

variable (node : Node)

theorem className?_eq : node.className? = node.tree.ownName? :=
  map_spelling_declaratorName? node

theorem constructedType?_eq : node.constructedType? = node.tree.constructedType? := by
  rw [constructedType?, Tree.constructedType?, ← map_tree_firstDeclarator?]
  cases node.firstDeclarator? with
  | none => rfl
  | some declarator =>
    simp only [Option.bind_eq_bind, Option.bind_some, Option.map_some, ← map_tree_initializer?]
    cases declarator.initializer? with
    | none => rfl
    | some value =>
      simp only [Option.bind_some, Option.map_some]
      rw [← map_tree_find? value fun child => child.kind.isType]
      rw [show value.tree.kind = value.kind from rfl]
      by_cases creation : value.kind = .objectCreation
      · rw [if_pos creation, if_pos creation]
        cases search : value.children.find? fun child => child.tree.kind.isType <;>
          simp [Node.kind, search, Node.typeName?]
      · rw [if_neg creation, if_neg creation]

theorem baseName?_eq : node.baseName? = node.tree.baseName? := by
  rw [baseName?, Tree.baseName?, ← map_tree_childOfKind?]
  cases node.childOfKind? .baseList with
  | none => rfl
  | some bases =>
    simp only [Option.bind_eq_bind, Option.bind_some, Option.map_some, ← map_tree_childOfKind?]
    cases bases.childOfKind? .baseTypeReference with
    | none => rfl
    | some base =>
      simp only [Option.bind_some, Option.map_some]
      rw [← map_tree_find? base fun child => !child.isToken, firstInnerChild?, child?, children_getElem?,
        show (fun child : Node => !child.isToken) = fun child => !child.tree.isToken from rfl]
      cases base.children.find? fun child => !child.tree.isToken with
      | some type => rfl
      | none => cases base.tree.children[0]? <;> rfl

theorem map_spelling_receiverName? : node.receiverName?.map spelling = node.tree.receiverName? := by
  rw [receiverName?, Tree.receiverName?, child?, children_getElem?]
  cases node.tree.children[0]? with
  | none => rfl
  | some child => by_cases name : child.kind = .identifier <;> simp [Option.filter, Node.kind, name, Node.spelling]

theorem map_spelling_memberName? : node.memberName?.map spelling = node.tree.memberName? := by
  -- The last name of all stands behind the first child exactly if there is a name behind it.
  cases shape : node.children with
  | nil =>
    have bare : node.tree.children = [] := by rw [← map_tree_children, shape]; rfl
    simp [memberName?, Tree.memberName?, childrenOfKind, shape, bare]
  | cons first rest =>
    have below : node.tree.children.tail = rest.map Node.tree := by
      rw [← map_tree_children, shape]
      rfl
    have zero : first.index = 0 := index_of_getElem? node (by rw [shape]; rfl)
    have later : ∀ name ∈ rest, 0 < name.index := by
      intro name member
      obtain ⟨position, known⟩ := List.getElem?_of_mem member
      have place : node.children[position + 1]? = some name := by rw [shape]; exact known
      rw [index_of_getElem? node place]
      omega
    have names : (rest.filter fun child => child.kind = .identifier).getLast?.map spelling = node.tree.memberName? := by
      rw [Tree.memberName?, below, List.filter_map, List.getLast?_map, Option.map_map]
      rfl
    rw [← names, memberName?, childrenOfKind, shape]
    cases found : (rest.filter fun child => child.kind = .identifier).getLast? with
    | none =>
      have none : rest.filter (fun child => child.kind = .identifier) = [] := List.getLast?_eq_none_iff.mp found
      by_cases name : first.kind = .identifier <;> simp [name, none, zero, Option.filter]
    | some last =>
      have member := (List.mem_filter.mp (List.mem_of_getLast? found)).1
      have whole : ((first :: rest).filter fun child => child.kind = .identifier).getLast? = some last := by
        by_cases name : first.kind = .identifier <;> simp [name, found, List.getLast?_cons]
      rw [whole]
      simp [Option.filter, later last member]

end Node

end TreeLint
