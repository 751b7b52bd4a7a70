import Mathlib.Data.List.Induction
import Mathlib.Logic.Relation
import TreeLint.Proofs.Detection

/-! Which classes a class inherits from. A lineage is cut off at the first class that it would repeat
and, besides, at the number of nodes in the tree. The second bound is never reached, so a lineage holds
exactly the classes that steps from a class to its base lead to, circles included. A search along the bases
that has no bound at all ends as well, and with the same answer. -/

namespace TreeLint

namespace Tree

structure Holds (tree : Tree) (node : Node) : Prop where
  root_eq : node.root = tree
  valid : node.Valid

theorem Holds.present {tree : Tree} {node : Node} (held : tree.Holds node) : tree.get? node.path = some node.tree := by
  rw [← held.root_eq]
  exact held.valid

theorem Holds.eq_of_path {tree : Tree} {first second : Node} (one : tree.Holds first) (two : tree.Holds second)
    (same : first.path = second.path) : first = second :=
  Node.ext_of_path (one.root_eq.trans two.root_eq.symm) same one.valid two.valid

theorem Holds.child {tree : Tree} {node child : Node} (held : tree.Holds node) (member : child ∈ node.children) :
    tree.Holds child :=
  ⟨(Node.mem_children member).1.trans held.root_eq, held.valid.child member⟩

theorem holds_asNode (tree : Tree) : tree.Holds tree.asNode :=
  ⟨rfl, get?_nil tree⟩

/-- Induction over the nodes of a tree, from the root down. -/
theorem Holds.induct {tree : Tree} {motive : Node → Prop} (root : motive tree.asNode)
    (step : ∀ node, tree.Holds node → motive node → ∀ child ∈ node.children, motive child) {node : Node}
    (held : tree.Holds node) : motive node := by
  obtain ⟨whole, path, found⟩ := node
  obtain ⟨rfl, valid⟩ := held
  induction path using List.reverseRecOn generalizing found with
  | nil =>
    have same : some whole = some found := (get?_nil whole).symm.trans valid
    cases same
    exact root
  | append_singleton path index ih =>
    rw [Node.Valid, get?_append, Option.bind_eq_some_iff] at valid
    obtain ⟨parent, above, below⟩ := valid
    obtain ⟨child, known, rest⟩ := get?_cons_eq_some.mp below
    rw [get?_nil] at rest
    cases rest
    refine step ⟨whole, path, parent⟩ ⟨rfl, above⟩ (ih parent above root step) _ (List.mem_of_getElem? (i := index) ?_)
    rw [Node.children_getElem?, known]
    rfl

mutual

private theorem length_subtrees (tree : Tree) : tree.subtrees.length = tree.size := by
  cases tree with
  | token kind leading text => rfl
  | node kind children =>
    rw [subtrees, List.length_cons, length_subtreesOf children, size, Nat.add_comm]

private theorem length_subtreesOf (trees : List Tree) : (subtreesOf trees).length = sizes trees := by
  cases trees with
  | nil => rfl
  | cons tree rest =>
    rw [subtreesOf, List.length_append, length_subtrees tree, length_subtreesOf rest, sizes]

end

theorem length_selfAndDescendants (tree : Tree) : tree.asNode.selfAndDescendants.length = tree.size := by
  have visited := congrArg List.length (map_tree_selfAndDescendants tree.asNode)
  rw [List.length_map] at visited
  exact visited.trans (length_subtrees tree)

/-- There are no more places than nodes. -/
theorem length_le_size {tree : Tree} {paths : List (List Nat)} (distinct : paths.Nodup)
    (present : ∀ path ∈ paths, (tree.get? path).isSome) : paths.length ≤ tree.size := by
  have visited : paths ⊆ tree.asNode.selfAndDescendants.map Node.path := by
    intro path member
    obtain ⟨found, known⟩ := Option.isSome_iff_exists.mp (present path member)
    exact List.mem_map.mpr ⟨⟨tree, path, found⟩, (mem_selfAndDescendants tree _).mpr ⟨rfl, known⟩, rfl⟩
  have bound := distinct.length_le_of_subset visited
  rwa [List.length_map, length_selfAndDescendants] at bound

end Tree

namespace Node
open TreeLint.Tree

theorem base_eq_found {definition base : Node} (found : definition.base = .found base) :
    definition.root.Holds base ∧ base.kind = .classDeclaration := by
  rw [Node.base] at found
  split at found
  · cases found
  · split at found
    · cases found
    · split at found
      next search =>
        cases found
        obtain ⟨sameRoot, valid, kind⟩ := findClass?_eq_some search
        exact ⟨⟨sameRoot, valid⟩, kind⟩
      next => cases found

/-- Steps from a class to its base lead from the first class to the second, which may be the same. -/
def Reaches : Node → Node → Prop :=
  Relation.ReflTransGen fun definition base => definition.base = .found base

theorem Reaches.holds {tree : Tree} {definition ancestor : Node} (reaches : definition.Reaches ancestor)
    (held : tree.Holds definition) : tree.Holds ancestor := by
  induction reaches with
  | refl => exact held
  | tail _ step ih =>
    obtain ⟨standing, _⟩ := base_eq_found step
    rwa [ih.root_eq] at standing

theorem Reaches.isClass {definition ancestor : Node} (reaches : definition.Reaches ancestor)
    (isClass : definition.kind = .classDeclaration) : ancestor.kind = .classDeclaration := by
  cases reaches with
  | refl => exact isClass
  | tail _ step => exact (base_eq_found step).2

theorem reaches_of_mem_lineageFrom {count : Nat} {visited : List (List Nat)} {definition ancestor : Node}
    (member : ancestor ∈ lineageFrom count visited definition) : definition.Reaches ancestor := by
  induction count generalizing visited definition with
  | zero => cases member
  | succ count ih =>
    rw [lineageFrom] at member
    split at member
    · cases member
    · rcases List.mem_cons.mp member with rfl | later
      · exact .refl
      · split at later
        next step => exact .head step (ih later)
        next => cases later

/-- When as many places have been visited as there are, there is no other. -/
private theorem visited_of_full {tree : Tree} {visited : List (List Nat)} {definition : Node}
    (held : tree.Holds definition) (distinct : visited.Nodup) (present : ∀ path ∈ visited, (tree.get? path).isSome)
    (full : tree.size ≤ visited.length) : definition.path ∈ visited := by
  refine Classical.byContradiction fun fresh => ?_
  have more : (definition.path :: visited).Nodup := List.nodup_cons.mpr ⟨fresh, distinct⟩
  have bound := length_le_size more (List.forall_mem_cons.mpr ⟨by rw [held.present]; rfl, present⟩)
  rw [List.length_cons] at bound
  omega

/-- A lineage that is not cut short leads on from each of its classes, unless the base has been
visited. -/
private theorem lineageFrom_closed {tree : Tree} {count : Nat} {visited : List (List Nat)} {definition : Node}
    (held : tree.Holds definition) (distinct : visited.Nodup) (present : ∀ path ∈ visited, (tree.get? path).isSome)
    (enough : tree.size ≤ count + visited.length) :
    (definition.path ∈ visited ∨ definition ∈ lineageFrom count visited definition) ∧
      ∀ ancestor ∈ lineageFrom count visited definition, ∀ base, ancestor.base = .found base →
        base.path ∈ visited ∨ base ∈ lineageFrom count visited definition := by
  induction count generalizing visited definition with
  | zero =>
    rw [Nat.zero_add] at enough
    exact ⟨.inl (visited_of_full held distinct present enough), fun ancestor member => by cases member⟩
  | succ count ih =>
    by_cases known : definition.path ∈ visited
    · rw [lineageFrom, if_pos known]
      exact ⟨.inl known, fun ancestor member => by cases member⟩
    · rw [lineageFrom, if_neg known]
      refine ⟨.inr (List.mem_cons_self ..), ?_⟩
      -- What has been visited one step later is either visited now or the class itself.
      have back {base : Node} (standing : tree.Holds base) {rest : List Node}
          (seen : base.path ∈ definition.path :: visited ∨ base ∈ rest) :
          base.path ∈ visited ∨ base ∈ definition :: rest := by
        rcases seen with here | later
        · rcases List.mem_cons.mp here with same | old
          · exact .inr (List.mem_cons.mpr (.inl (standing.eq_of_path held same)))
          · exact .inl old
        · exact .inr (List.mem_cons_of_mem _ later)
      cases step : definition.base with
      | root => simp [step]
      | missing name => simp [step]
      | found next =>
        have standing : tree.Holds next := held.root_eq ▸ (base_eq_found step).1
        have fresh : (definition.path :: visited).Nodup := List.nodup_cons.mpr ⟨known, distinct⟩
        obtain ⟨first, closed⟩ := ih standing fresh
          (List.forall_mem_cons.mpr ⟨by rw [held.present]; rfl, present⟩) (by rw [List.length_cons]; omega)
        intro ancestor member base up
        rcases List.mem_cons.mp member with rfl | later
        · obtain rfl : next = base := by
            rw [step] at up
            cases up
            rfl
          exact back standing first
        · have held : tree.Holds ancestor := (reaches_of_mem_lineageFrom later).holds standing
          exact back (held.root_eq ▸ (base_eq_found up).1) (closed ancestor later base up)

/-- The lineage of a class holds the classes that its bases lead to, and no others. -/
theorem mem_lineage_iff {definition ancestor : Node} (valid : definition.Valid) :
    ancestor ∈ definition.lineage ↔ definition.Reaches ancestor := by
  refine ⟨reaches_of_mem_lineageFrom, fun reaches => ?_⟩
  have held : definition.root.Holds definition := ⟨rfl, valid⟩
  have enough : definition.root.size ≤ definition.root.size + ([] : List (List Nat)).length := Nat.le_refl _
  obtain ⟨first, closed⟩ := lineageFrom_closed held List.nodup_nil (by simp) enough
  induction reaches with
  | refl => exact first.resolve_left (by simp)
  | tail _ step ih => exact (closed _ ih _ step).resolve_left (by simp)

theorem hasMethod_iff {definition : Node} (valid : definition.Valid) (name : String) :
    definition.hasMethod name ↔ ∃ ancestor, definition.Reaches ancestor ∧ ancestor.declaresMethod name := by
  rw [hasMethod, List.any_eq_true]
  exact exists_congr fun ancestor => and_congr_left fun _ => mem_lineage_iff valid

/-- A search for a method that comes to an end. It goes from a class to its base until it meets a class that has the
method, one without a base in this file, or one whose path is in `visited`. A search that went on forever would have no
answer. -/
inductive Seeks (name : String) : List (List Nat) → Node → Bool → Prop where
  | again {visited : List (List Nat)} {definition : Node} (known : definition.path ∈ visited) :
      Seeks name visited definition false
  | declared {visited : List (List Nat)} {definition : Node} (fresh : definition.path ∉ visited)
      (own : definition.declaresMethod name = true) : Seeks name visited definition true
  | last {visited : List (List Nat)} {definition : Node} (fresh : definition.path ∉ visited)
      (lacking : definition.declaresMethod name = false) (alone : ∀ base, definition.base ≠ .found base) :
      Seeks name visited definition false
  | onward {visited : List (List Nat)} {definition base : Node} {answer : Bool} (fresh : definition.path ∉ visited)
      (lacking : definition.declaresMethod name = false) (step : definition.base = .found base)
      (rest : Seeks name (definition.path :: visited) base answer) : Seeks name visited definition answer

theorem Seeks.unique {name : String} {visited : List (List Nat)} {definition : Node} {first second : Bool}
    (one : Seeks name visited definition first) (other : Seeks name visited definition second) : first = second := by
  induction one with
  | again known =>
    cases other with
    | again => rfl
    | declared fresh | last fresh | onward fresh => exact absurd known fresh
  | declared fresh own =>
    cases other with
    | again known => exact absurd known fresh
    | declared => rfl
    | last _ lacking | onward _ lacking => rw [own] at lacking; cases lacking
  | last fresh lacking alone =>
    cases other with
    | again | last => rfl
    | declared _ own => rw [own] at lacking; cases lacking
    | onward _ _ step => exact absurd step (alone _)
  | onward fresh lacking step _ ih =>
    cases other with
    | again known => exact absurd known fresh
    | declared _ own => rw [own] at lacking; cases lacking
    | last _ _ alone => exact absurd step (alone _)
    | onward _ _ up rest =>
      rw [step] at up
      cases up
      exact ih rest

private theorem seeks_any {tree : Tree} {count : Nat} {visited : List (List Nat)} {definition : Node}
    (held : tree.Holds definition) (distinct : visited.Nodup) (present : ∀ path ∈ visited, (tree.get? path).isSome)
    (enough : tree.size ≤ count + visited.length) (name : String) :
    Seeks name visited definition
      ((lineageFrom count visited definition).any fun ancestor => ancestor.declaresMethod name) := by
  -- Each step adds a place of the tree to those visited, so the count bounds the steps still to come.
  induction count generalizing visited definition with
  | zero =>
    rw [Nat.zero_add] at enough
    exact .again (visited_of_full held distinct present enough)
  | succ count ih =>
    rw [lineageFrom]
    by_cases known : definition.path ∈ visited
    · rw [if_pos known]
      exact .again known
    rw [if_neg known, List.any_cons]
    cases own : definition.declaresMethod name with
    | true => exact .declared known own
    | false =>
      cases step : definition.base with
      | root => exact .last known own fun base up => by rw [step] at up; cases up
      | missing missed => exact .last known own fun base up => by rw [step] at up; cases up
      | found next =>
        have standing : tree.Holds next := held.root_eq ▸ (base_eq_found step).1
        have fresh : (definition.path :: visited).Nodup := List.nodup_cons.mpr ⟨known, distinct⟩
        exact .onward known own step (ih standing fresh
          (List.forall_mem_cons.mpr ⟨by rw [held.present]; rfl, present⟩) (by rw [List.length_cons]; omega))

/-- Whatever the base lists spell, a search for a method ends, and it finds one exactly if a class has it that the
bases lead to. -/
theorem seeks_iff {tree : Tree} {definition : Node} (held : tree.Holds definition) (name : String) :
    (∀ answer, Seeks name [] definition answer ↔ answer = definition.hasMethod name) ∧
      (definition.hasMethod name ↔ ∃ ancestor, definition.Reaches ancestor ∧ ancestor.declaresMethod name) := by
  have enough : tree.size ≤ tree.size + ([] : List (List Nat)).length := Nat.le_refl _
  have ends : Seeks name [] definition (definition.hasMethod name) := by
    rw [hasMethod, lineage, held.root_eq]
    exact seeks_any held List.nodup_nil (by simp) enough name
  refine ⟨fun answer => ⟨fun seeks => seeks.unique ends, ?_⟩, hasMethod_iff held.valid name⟩
  rintro rfl
  exact ends

end Node

/-- Two classes that inherit from each other, one of which declares a method, and a class outside the circle. Inside
that one stands another class of its base's name, which the search for the base passes over. -/
def circling : Tree :=
  let definition (name base : String) (members : List Tree) : Tree :=
    .node .classDeclaration
      [.token .keyword "\n" "class", .token .identifier " " name,
        .node .baseList [.token .punctuation " " ":", .node .baseTypeReference [.token .identifier " " base]],
        .node .declarationList ([.token .punctuation " " "\x7b"] ++ members ++ [.token .punctuation " " "\x7d"])]
  .node .compilationUnit
    [definition "First" "Second" [],
      definition "Second" "First"
        [.node .methodDeclaration
          [.token .predefinedType " " "void", .token .identifier " " "Show",
            .node .parameterList [.token .punctuation "" "(", .token .punctuation "" ")"]]],
      definition "Outside" "First" [definition "First" "Object" []]]

theorem Node.seeks_iff_circling :
    ∃ definition, circling.Holds definition ∧ definition.path = [2] ∧
      Node.Seeks "Show" [] definition true ∧ Node.Seeks "Other" [] definition false ∧
      (∃ ancestor, definition.Reaches ancestor ∧ ancestor.declaresMethod "Show") ∧
      ¬ ∃ ancestor, definition.Reaches ancestor ∧ ancestor.declaresMethod "Other" := by
  obtain ⟨definition, known⟩ : ∃ definition, circling.nodeAt? [2] = some definition := ⟨_, rfl⟩
  have held : circling.Holds definition := by
    cases known
    exact ⟨rfl, rfl⟩
  obtain ⟨shows, shown⟩ := Node.seeks_iff held "Show"
  obtain ⟨others, other⟩ := Node.seeks_iff held "Other"
  have found : definition.hasMethod "Show" = true := by
    cases known
    decide +kernel
  have missing : definition.hasMethod "Other" = false := by
    cases known
    decide +kernel
  rw [found] at shows shown
  rw [missing] at others other
  have place : definition.path = [2] := by cases known; rfl
  exact ⟨definition, held, place, (shows true).mpr rfl, (others false).mpr rfl, shown.mp rfl, fun reached => by cases other.mpr reached⟩

end TreeLint
