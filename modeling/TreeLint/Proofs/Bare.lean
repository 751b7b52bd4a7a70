import TreeLint.Proofs.Simulation

/-! Trees without trivia. Two trees that look the same without their trivia differ in formatting only. A bare
tree simulates the tree it comes from, node by node, so what the rules report does not depend on formatting. -/

namespace TreeLint

namespace Tree

mutual

/-- The tree with the trivia of all tokens taken away. -/
def bare : Tree → Tree
  | token kind _ text => token kind "" text
  | node kind children => node kind (bares children)

def bares : List Tree → List Tree
  | [] => []
  | tree :: rest => tree.bare :: bares rest

end

theorem bares_eq_map (trees : List Tree) : bares trees = trees.map bare := by
  induction trees with
  | nil => rfl
  | cons tree rest ih => rw [bares, ih, List.map_cons]

theorem bare_node (kind : Kind) (children : List Tree) : (node kind children).bare = node kind (children.map bare) := by
  rw [bare, bares_eq_map]

section
variable (tree : Tree)

@[simp] theorem kind_bare : tree.bare.kind = tree.kind := by
  cases tree <;> rfl

@[simp] theorem spelling_bare : tree.bare.spelling = tree.spelling := by
  cases tree <;> rfl

@[simp] theorem children_bare : tree.bare.children = tree.children.map bare := by
  cases tree with
  | token kind leading text => rfl
  | node kind children => rw [bare_node]; rfl

theorem find?_children_bare (kind : Kind) :
    (tree.bare.children.find? fun child => child.kind = kind) =
      (tree.children.find? fun child => child.kind = kind).map bare := by
  rw [children_bare, List.find?_map]
  congr 2
  funext child
  simp

@[simp] theorem glimpse_bare : tree.bare.glimpse = tree.glimpse := by
  induction tree with
  | token kind leading text => rfl
  | node kind children ih =>
    have same : children.map (glimpse ∘ bare) = children.map glimpse := List.map_congr_left ih
    rw [bare_node, glimpse, glimpse, glimpses_eq_map, glimpses_eq_map, List.map_map, same]

@[simp] theorem sketch_bare : tree.bare.sketch = tree.sketch := by
  cases tree with
  | token kind leading text => rfl
  | node kind children =>
    have same : children.map (glimpse ∘ bare) = children.map glimpse :=
      List.map_congr_left fun child _ => glimpse_bare child
    rw [bare_node, sketch, sketch, glimpses_eq_map, glimpses_eq_map, List.map_map, same]

@[simp] theorem bare_bare : tree.bare.bare = tree.bare := by
  induction tree with
  | token kind leading text => rfl
  | node kind children ih =>
    have same : children.map (bare ∘ bare) = children.map bare := List.map_congr_left ih
    rw [bare_node, bare_node, List.map_map, same]

theorem subtrees_bare : tree.bare.subtrees = tree.subtrees.map bare := by
  induction tree with
  | token kind leading text => rfl
  | node kind children ih =>
    rw [subtrees_eq, subtrees_eq (node kind children), List.map_cons, children_bare, children_node, List.flatMap_map,
      List.map_flatMap]
    rw [List.flatMap_congr fun child member => ih child member]

@[simp] theorem declares_bare (name : String) : tree.bare.declares name = tree.declares name := by
  rw [← declares_sketch, sketch_bare, declares_sketch]

theorem get?_bare (path : List Nat) : tree.bare.get? path = (tree.get? path).map bare := by
  induction path generalizing tree with
  | nil => rw [get?_nil, get?_nil, Option.map_some]
  | cons index path ih =>
    rw [get?_cons, get?_cons, children_bare, List.getElem?_map]
    cases tree.children[index]? with
    | none => rfl
    | some child => exact ih child

end

theorem WellFormed.bare {tree : Tree} (shape : tree.WellFormed) : tree.bare.WellFormed := by
  induction tree with
  | token kind leading text => exact shape
  | node kind children ih =>
    obtain ⟨inner, below⟩ := (wellFormed_node kind children).mp shape
    rw [bare_node, wellFormed_node]
    refine ⟨inner, ?_⟩
    intro piece member
    obtain ⟨child, present, rfl⟩ := List.mem_map.mp member
    exact ih child present (below child present)

theorem bare_withLeading {tree : Tree} (shape : tree.WellFormed) (trivia : String) :
    (tree.withLeading trivia).bare = tree.bare := by
  induction tree with
  | token kind leading text =>
    simp only [WellFormed] at shape
    simp [withLeading, shape, bare]
  | node kind children ih =>
    obtain ⟨inner, below⟩ := (wellFormed_node kind children).mp shape
    simp only [withLeading, inner, Bool.false_eq_true, if_false, bare_node]
    rw [map_withLeadingFirst bare fun child member => ih child member (below child member)]

theorem bare_replaceAt (tree replacement : Tree) (path : List Nat) :
    (tree.replaceAt path replacement).bare = tree.bare.replaceAt path replacement.bare := by
  induction path generalizing tree with
  | nil => rw [replaceAt_nil, replaceAt_nil]
  | cons index path ih =>
    cases known : tree.children[index]? with
    | none =>
      have nothing : tree.bare.children[index]? = none := by rw [children_bare, List.getElem?_map, known]; rfl
      rw [replaceAt, known, replaceAt, nothing]
    | some child =>
      have there : tree.bare.children[index]? = some child.bare := by rw [children_bare, List.getElem?_map, known]; rfl
      rw [replaceAt_cons known, replaceAt_cons there, bare_node, List.map_set, ih, kind_bare, children_bare]

end Tree

namespace Node
open TreeLint.Tree

def bare (node : Node) : Node :=
  ⟨node.root.bare, node.path, node.tree.bare⟩

theorem kind_bare (node : Node) : node.bare.kind = node.kind :=
  Tree.kind_bare node.tree

theorem spelling_bare (node : Node) : node.bare.spelling = node.spelling :=
  Tree.spelling_bare node.tree

theorem children_bare (node : Node) : node.bare.children = node.children.map bare := by
  apply List.ext_getElem?
  intro index
  rw [List.getElem?_map, children_getElem?, children_getElem?, Option.map_map]
  simp only [bare, Tree.children_bare, List.getElem?_map, Option.map_map]
  rfl

end Node

open TreeLint.Tree

theorem Tree.Holds.bare {tree : Tree} {node : Node} (held : tree.Holds node) : tree.bare.Holds node.bare := by
  refine ⟨congrArg Tree.bare held.root_eq, ?_⟩
  rw [Node.Valid, Node.bare, get?_bare, show node.root.get? node.path = _ from held.valid, Option.map_some]

theorem simulation_bare (tree : Tree) : Simulation tree tree.bare Node.bare where
  root := rfl
  signature node _ := signature_eq_of_sketch (sketch_bare node.tree)
  children node _ := by
    rw [Node.children_bare]
    exact .refl _

/-- Formatting does not show in what the rules report. -/
theorem detect_bare (rules : List Rule) (tree : Tree) :
    detect rules tree.bare = (detect rules tree).map (Defect.moved Node.bare) := by
  apply (simulation_bare tree).detect_moved
  intro definition _ _
  rw [Node.declaresMethod_eq, Node.declaresMethod_eq, Node.bare, declares_bare]

end TreeLint
