import TreeLint.Proofs.Uncommented

/-! What the rules report on a tree without some of its comments. Each place that is left was a place of the whole tree,
and the children that are left there stand among all its children with nothing but comments between them. So the whole
tree simulates what is left of it, and comments that are not read make no difference to the reports. A comment that is
read can make one, at each of the places where children are read. -/

namespace TreeLint

namespace Tree

def kept (picked : List Nat → Bool) (tree : Tree) : List (Tree × Nat) :=
  tree.children.zipIdx.filter fun item => !(item.1.kind = .comment && picked [item.2])

/-- The path that leads to the same place when the comments are still there. -/
def origin (picked : List Nat → Bool) (tree : Tree) : List Nat → List Nat
  | [] => []
  | step :: path =>
    match (tree.kept picked)[step]? with
    | some (child, index) => index :: child.origin (fun below => picked (index :: below)) path
    | none => []

theorem withoutFrom_eq_map (picked : List Nat → Bool) (index : Nat) (trees : List Tree) :
    withoutFrom picked index trees =
      ((trees.zipIdx index).filter fun item => !(item.1.kind = .comment && picked [item.2])).map fun item =>
        item.1.without fun path => picked (item.2 :: path) := by
  induction trees generalizing index with
  | nil => rfl
  | cons tree rest ih =>
    rw [List.zipIdx_cons, List.filter_cons]
    by_cases gone : tree.kind = .comment && picked [index]
    · rw [withoutFrom_gone gone, ih, gone]
      rfl
    · rw [withoutFrom_stays gone, ih, Bool.eq_false_iff.mpr gone]
      rfl

section
variable {picked : List Nat → Bool} {tree : Tree}

theorem children_without_eq : (tree.without picked).children =
    (tree.kept picked).map fun item => item.1.without fun path => picked (item.2 :: path) := by
  rw [children_without, withoutFrom_eq_map, kept]

theorem getElem?_of_kept {child : Tree} {step index : Nat} (known : (tree.kept picked)[step]? = some (child, index)) :
    tree.children[index]? = some child :=
  List.mk_mem_zipIdx_iff_getElem?.mp (List.mem_filter.mp (List.mem_of_getElem? known)).1

theorem origin_cons {child : Tree} {step index : Nat} (known : (tree.kept picked)[step]? = some (child, index))
    (path : List Nat) :
    tree.origin picked (step :: path) = index :: child.origin (fun below => picked (index :: below)) path := by
  rw [origin, known]

/-- Each place that is left was a place before, and what is left there comes from what was there. -/
theorem exists_origin {thin : Tree} {path : List Nat} (present : (tree.without picked).get? path = some thin) :
    ∃ found, tree.get? (tree.origin picked path) = some found ∧
      thin = found.without (fun below => picked (tree.origin picked path ++ below)) ∧
      ∀ below, tree.origin picked (path ++ below) =
        tree.origin picked path ++ found.origin (fun rest => picked (tree.origin picked path ++ rest)) below := by
  induction path generalizing tree picked with
  | nil =>
    rw [get?_nil] at present
    cases present
    exact ⟨tree, get?_nil tree, rfl, fun _ => rfl⟩
  | cons step path ih =>
    obtain ⟨middle, known, rest⟩ := get?_cons_eq_some.mp present
    rw [children_without_eq, List.getElem?_map, Option.map_eq_some_iff] at known
    obtain ⟨⟨child, index⟩, here, rfl⟩ := known
    obtain ⟨found, below, same, onward⟩ := ih rest
    refine ⟨found, ?_, ?_, ?_⟩
    · rw [origin_cons here]
      exact get?_cons_eq_some.mpr ⟨child, getElem?_of_kept here, below⟩
    · rw [same, origin_cons here]
      rfl
    · intro further
      rw [List.cons_append, origin_cons here, origin_cons here, onward]
      rfl

theorem silent_of_comment (shape : tree.WellFormed) (isComment : tree.kind = .comment) : tree.Silent := by
  cases tree with
  | token kind leading text =>
    intro found member
    rw [subtrees_eq, List.mem_cons] at member
    rcases member with rfl | inside
    · rw [isComment]
      rfl
    · cases inside
  | node kind children =>
    have inner := ((wellFormed_node kind children).mp shape).1
    rw [show kind = .comment from isComment] at inner
    cases inner

end

end Tree

theorem padded_filter {α : Type} {items : List α} {stays : α → Bool} {place : α → Node}
    (silent : ∀ item ∈ items, stays item = false → (place item).tree.Silent) :
    Padded ((items.filter stays).map place) (items.map place) := by
  induction items with
  | nil => exact .nil
  | cons item rest ih =>
    obtain ⟨here, below⟩ := List.forall_mem_cons.mp silent
    rw [List.filter_cons, List.map_cons]
    cases known : stays item with
    | true => exact .keep (ih below)
    | false => exact .pad (here known) (ih below)

def Node.original (tree : Tree) (picked : List Nat → Bool) (node : Node) : Node :=
  ⟨tree, tree.origin picked node.path, (tree.get? (tree.origin picked node.path)).getD node.tree⟩

section
open TreeLint.Tree
variable {tree : Tree} {picked : List Nat → Bool}

theorem Node.original_eq {node : Node} {found : Tree} (present : tree.get? (tree.origin picked node.path) = some found) :
    node.original tree picked = ⟨tree, tree.origin picked node.path, found⟩ := by
  rw [original, present, Option.getD_some]

theorem thinned_original {node : Node} (unread : tree.Unread picked) (held : (tree.without picked).Holds node) :
    Thinned (node.original tree picked).tree node.tree := by
  obtain ⟨found, present, same, _⟩ := exists_origin held.present
  rw [Node.original_eq present]
  exact ⟨_, unread.get? present, same⟩

/-- The children that are left stand among all children, and only comments stand between them. -/
theorem padded_original {node : Node} (shape : tree.WellFormed) (held : (tree.without picked).Holds node) :
    Padded (node.children.map (Node.original tree picked)) (node.original tree picked).children := by
  obtain ⟨found, present, same, onward⟩ := exists_origin held.present
  let place (item : Tree × Nat) : Node := ⟨tree, tree.origin picked node.path ++ [item.2], item.1⟩
  have all : (node.original tree picked).children = found.children.zipIdx.map place := by
    rw [Node.original_eq present, Node.children, List.mapIdx_eq_zipIdx_map]
  have left : node.children.map (Node.original tree picked) =
      (found.kept fun below => picked (tree.origin picked node.path ++ below)).map place := by
    apply List.ext_getElem?
    intro step
    rw [List.getElem?_map, List.getElem?_map, Node.children_getElem?, same, children_without_eq, List.getElem?_map,
      Option.map_map, Option.map_map]
    cases known : (found.kept fun below => picked (tree.origin picked node.path ++ below))[step]? with
    | none => rfl
    | some item =>
      obtain ⟨child, index⟩ := item
      have path : tree.origin picked (node.path ++ [step]) = tree.origin picked node.path ++ [index] := by
        rw [onward, origin_cons known, origin]
      have there : tree.get? (tree.origin picked (node.path ++ [step])) = some child := by
        rw [path]
        exact get?_concat present (getElem?_of_kept known)
      simp only [Option.map_some, Function.comp_apply]
      rw [Node.original_eq there, path]
  -- Both lists come from the numbered children, one from all of them and one from those that stay.
  rw [all, left]
  apply padded_filter
  intro item member gone
  simp only [Bool.not_eq_false', Bool.and_eq_true, decide_eq_true_eq] at gone
  have inside := List.mem_of_getElem? (List.mem_zipIdx_iff_getElem?.mp member)
  exact silent_of_comment ((shape.get? present).child inside) gone.1

theorem simulation_without (shape : tree.WellFormed) (unread : tree.Unread picked) :
    Simulation (tree.without picked) tree (Node.original tree picked) where
  root := rfl
  signature _ held := (thinned_original unread held).signature_eq.symm
  children _ held := padded_original shape held

def reports (rules : List Rule) (tree : Tree) : List (String × List String) :=
  (detect rules tree).map fun defect => (defect.rule.id, defect.arguments)

/-- Comments that are not read do not show in what the rules report. -/
theorem reports_without (shape : tree.WellFormed) (unread : tree.Unread picked) (rules : List Rule) :
    reports rules (tree.without picked) = reports rules tree := by
  have moved : detect rules tree = (detect rules (tree.without picked)).map (Defect.moved (Node.original tree picked)) := by
    apply (simulation_without shape unread).detect_moved
    intro definition held _
    rw [Node.declaresMethod_eq, Node.declaresMethod_eq, (thinned_original unread held).declares_eq]
  rw [reports, reports, moved, List.map_map]
  rfl

end

/-- Four classes are created and converted, with comments on the way. One more comment stands at each of the five
places where a child is read. -/
def interspersed : Tree :=
  let comment : Tree := .token .comment " " "/**/"
  let creation (name type : String) (comments : List Tree) : Tree :=
    .node .variableDeclaration
      [.token .implicitType "\n" "var", comment, .node .variableDeclarator
        ([.token .identifier " " name, .token .punctuation " " "="] ++ comments ++
          [.node .objectCreation [.token .keyword " " "new", comment, .token .identifier " " type]])]
  let conversion (name : String) (comments : List Tree) : Tree :=
    .node .memberAccess
      (comments ++ [.token .identifier "\n" name, .token .punctuation "" ".", comment, .token .identifier "" "ToString"])
  let definition (name : String) (bases members : List Tree) : Tree :=
    .node .classDeclaration
      ([.token .keyword "\n" "class", .token .identifier " " name] ++ bases ++ [.node .declarationList members])
  let method (comments : List Tree) : Tree :=
    .node .methodDeclaration
      ([.token .predefinedType " " "string", .token .identifier " " "ToString"] ++ comments ++ [.node .parameterList []])
  .node .compilationUnit
    [.node .variableDeclaration
        [comment, .token .predefinedType "\n" "bool", .node .variableDeclarator [.token .identifier " " "notEmpty"]],
      creation "a" "A" [comment], conversion "a" [], definition "A" [] [],
      creation "b" "B" [], conversion "b" [comment], definition "B" [] [],
      creation "c" "C" [], conversion "c" [], definition "C" [] [method [comment]],
      creation "d" "D" [], conversion "d" [],
      definition "D" [.node .baseList [.node .baseTypeReference [comment, .token .identifier " " "E"]]] [],
      definition "E" [] [method []]]

theorem wellFormed_interspersed : interspersed.WellFormed := by
  simp [interspersed, Tree.WellFormed, Tree.AllWellFormed, Kind.isToken]

def readComments : List (List Nat) :=
  [[0, 0], [1, 2, 2], [5, 0], [9, 2, 0, 2], [12, 2, 0, 0]]

/-- All other comments can be taken away at once. -/
theorem reports_without_interspersed :
    let picked (path : List Nat) : Bool := path ∉ readComments
    interspersed.WellFormed ∧ interspersed.Unread picked ∧ (interspersed.without picked).size + 12 = interspersed.size ∧
      reports Rule.all (interspersed.without picked) = [("SL-S001", ["c"]), ("SL-S001", ["d"])] := by
  intro picked
  have unread : interspersed.Unread picked := by decide +kernel
  have same := reports_without wellFormed_interspersed unread Rule.all
  exact ⟨wellFormed_interspersed, unread, by decide +kernel, same.trans (by decide +kernel)⟩

/-- Each of these comments, taken away alone, changes the reports. -/
theorem reports_changed_interspersed : interspersed.WellFormed ∧ ∀ place ∈ readComments,
    (∃ comment, interspersed.get? place = some comment ∧ comment.kind = .comment) ∧
      reports Rule.all (interspersed.without fun path => path = place) ≠ reports Rule.all interspersed := by
  have found : ∀ place ∈ readComments, (interspersed.get? place).map Tree.kind = some .comment := by decide +kernel
  have changed : ∀ place ∈ readComments,
      reports Rule.all (interspersed.without fun path => path = place) ≠ reports Rule.all interspersed := by decide +kernel
  refine ⟨wellFormed_interspersed, fun place member => ⟨?_, changed place member⟩⟩
  exact Option.map_eq_some_iff.mp (found place member)

end TreeLint
