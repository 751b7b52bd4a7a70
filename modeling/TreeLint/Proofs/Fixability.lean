import TreeLint.Proofs.Inheritance
import TreeLint.Proofs.Rounds
import TreeLint.Proofs.Tidiness

/-! When a report can be fixed. What the fix asks for is said of the file in which the report was made, although the
renaming fix looks for other declarations of the name in the file with the new declaration: there the pieces that it
leaves out are gone, and everything else introduces the same names as before. No report is refused for any other
reason. -/

namespace TreeLint

namespace Tree

section
variable {name : String} {tree found replacement : Tree} {path : List Nat}

theorem unclaimed_below (present : tree.get? path = some found) :
    Unclaimed name found ↔
      ∀ place, tree.Holds place → path <+: place.path → place.tree.introduced? ≠ some name := by
  constructor
  · intro unclaimed place held inside
    obtain ⟨below, split⟩ := inside
    have there := held.present
    rw [← split, get?_append, present, Option.bind_some] at there
    exact unclaimed place.tree (mem_subtrees.mpr ⟨below, there⟩)
  · intro free inner member
    obtain ⟨below, there⟩ := mem_subtrees.mp member
    refine free ⟨tree, path ++ below, inner⟩ ⟨rfl, ?_⟩ (List.prefix_append path below)
    rw [Node.Valid, get?_append, present, Option.bind_some, there]

/-- A replaced landmark leaves the names that are introduced elsewhere. -/
theorem unclaimed_replaceAt (present : tree.get? path = some found) (shape : found.WellFormed)
    (fits : Replaces replacement found) :
    Unclaimed name (tree.replaceAt path replacement) ↔
      (∀ place, tree.Holds place → ¬ path <+: place.path → place.tree.introduced? ≠ some name) ∧
        Unclaimed name replacement := by
  have elsewhere {place : List Nat} (apart : ¬ path <+: place) :=
    map_get?_replaceAt introduced?_sketch present shape fits apart
  constructor
  · intro unclaimed
    constructor
    · intro place held apart
      have same := elsewhere apart
      rw [held.present, Option.map_some, Option.map_eq_some_iff] at same
      obtain ⟨later, there, same⟩ := same
      rw [← same]
      exact unclaimed later (mem_subtrees.mpr ⟨place.path, there⟩)
    · intro inner member
      obtain ⟨below, there⟩ := mem_subtrees.mp member
      refine unclaimed inner (mem_subtrees.mpr ⟨path ++ below, ?_⟩)
      rw [get?_replaceAt_below present, there]
  · rintro ⟨free, fresh⟩ inner member
    obtain ⟨place, there⟩ := mem_subtrees.mp member
    by_cases inside : path <+: place
    · obtain ⟨below, rfl⟩ := inside
      rw [get?_replaceAt_below present] at there
      exact fresh inner (mem_subtrees.mpr ⟨below, there⟩)
    · have same := elsewhere inside
      rw [there, Option.map_some, eq_comm, Option.map_eq_some_iff] at same
      obtain ⟨earlier, known, same⟩ := same
      rw [← same]
      exact free ⟨tree, place, earlier⟩ ⟨rfl, known⟩ inside

end

/-- In the new declaration a name is introduced where it was in the literal and behind the first declarator. -/
theorem unclaimed_renamed {declaration value : Tree} {name new : String} (shape : declaration.WellFormed)
    (literal : declaration.literal? = some value) (other : new ≠ name) (trivia : String) :
    Unclaimed name ((declaration.renamed value new).withLeading trivia) ↔
      Unclaimed name value ∧ ∀ piece ∈ declaration.others, Unclaimed name piece := by
  have whole : claims name ((declaration.renamed value new).withLeading trivia) = 0 := by
    simp [claims, introduced?, kind_renamed shape literal]
  have declared : claims name (newDeclarator value new) = 0 := by
    simp [claims, introduced?, newDeclarator, ownName?, spelling, other]
  simp only [unclaimed_iff, tally_renamed (weight_claims name) shape literal, whole, declared, Nat.zero_add,
    Nat.add_eq_zero_iff, List.sum_eq_zero_iff_forall_eq_nat, List.forall_mem_map]

theorem Holds.self_or_below {tree : Tree} {node place : Node} (held : tree.Holds node) (there : tree.Holds place)
    (inside : node.path <+: place.path) : place = node ∨ ∃ child ∈ node.children, child.path <+: place.path := by
  obtain ⟨below, split⟩ := inside
  cases below with
  | nil =>
    rw [List.append_nil] at split
    exact .inl (there.eq_of_path held split.symm)
  | cons index below =>
    right
    have known := there.present
    rw [← split, get?_append, held.present, Option.bind_some] at known
    obtain ⟨child, here, _⟩ := get?_cons_eq_some.mp known
    refine ⟨⟨node.root, node.path ++ [index], child⟩, List.mem_of_getElem? (i := index) ?_, ?_⟩
    · rw [Node.children_getElem?, here]
      rfl
    · rw [← split]
      exact ⟨below, by simp⟩

theorem Holds.eq_of_child {tree : Tree} {first second child : Node} (one : tree.Holds first) (two : tree.Holds second)
    (here : child ∈ first.children) (there : child ∈ second.children) : first = second := by
  have same : first.path ++ [child.index] = second.path ++ [child.index] := by
    rw [← (Node.mem_children here).2.1, ← (Node.mem_children there).2.1]
  exact one.eq_of_path two (List.append_cancel_right same)

end Tree

namespace Node

theorem prefix_of_mem_children {node child : Node} (member : child ∈ node.children) : node.path <+: child.path := by
  rw [(mem_children member).2.1]
  exact List.prefix_append ..

/-- A place is below one child only. -/
theorem eq_of_prefix {node first second : Node} {place : List Nat} (one : first ∈ node.children)
    (two : second ∈ node.children) (above : first.path <+: place) (beneath : second.path <+: place) :
    first = second := by
  have length : first.path.length = second.path.length := by
    rw [(mem_children one).2.1, (mem_children two).2.1]
    simp
  have same := List.IsPrefix.eq_of_length (List.prefix_of_prefix_length_le above beneath (Nat.le_of_eq length)) length
  exact eq_of_path one two same

theorem eq_of_index {node first second : Node} (one : first ∈ node.children) (two : second ∈ node.children)
    (same : first.index = second.index) : first = second :=
  eq_of_path one two (by rw [(mem_children one).2.1, (mem_children two).2.1, same])

theorem mem_take_children {node child : Node} {count : Nat} :
    child ∈ node.children.take count ↔ child ∈ node.children ∧ child.index < count := by
  constructor
  · intro member
    obtain ⟨position, known⟩ := List.getElem?_of_mem member
    rw [List.getElem?_take, Option.ite_none_right_eq_some] at known
    rw [index_of_getElem? node known.2]
    exact ⟨List.mem_of_mem_take member, known.1⟩
  · rintro ⟨member, early⟩
    refine List.mem_of_getElem? (i := child.index) ?_
    rw [List.getElem?_take_of_lt early, getElem?_index node member]

theorem mem_drop_children {node child : Node} {count : Nat} :
    child ∈ node.children.drop count ↔ child ∈ node.children ∧ count ≤ child.index := by
  constructor
  · intro member
    obtain ⟨position, known⟩ := List.getElem?_of_mem member
    rw [List.getElem?_drop] at known
    rw [index_of_getElem? node known]
    exact ⟨List.mem_of_mem_drop member, Nat.le_add_right ..⟩
  · rintro ⟨member, late⟩
    refine List.mem_of_getElem? (i := child.index - count) ?_
    rw [List.getElem?_drop, Nat.add_sub_cancel' late, getElem?_index node member]

theorem mem_eraseIdx_children {node child : Node} {position : Nat} :
    child ∈ node.children.eraseIdx position ↔ child ∈ node.children ∧ child.index ≠ position := by
  rw [List.mem_eraseIdx_iff_getElem?]
  constructor
  · rintro ⟨index, other, known⟩
    rw [index_of_getElem? node known]
    exact ⟨List.mem_of_getElem? known, other⟩
  · rintro ⟨member, other⟩
    exact ⟨child.index, other, getElem?_index node member⟩

end Node

namespace Fix
open TreeLint.Tree

section
variable {tree : Tree} {node declarator value place : Node} (first : node.firstDeclarator? = some declarator)
  (initial : declarator.initializer? = some value)

include first initial

theorem mem_discarded {part : Node} :
    part ∈ discarded node ↔
      (part ∈ node.children ∧ part.index < declarator.index) ∨
        (part ∈ declarator.children ∧ part.index ≠ value.index) := by
  rw [discarded_eq first initial, List.mem_append, Node.mem_take_children, Node.mem_eraseIdx_children]

/-- Below a declaration everything is the first declarator, in a piece that is left out, or in one that is written
again. -/
theorem below_cases (held : tree.Holds node) (there : tree.Holds place) (inside : node.path <+: place.path) :
    place = node ∨ (place = declarator ∨ ∃ part ∈ discarded node, part.path <+: place.path) ∨
      ∃ part, (part = value ∨ part ∈ node.children.drop (declarator.index + 1)) ∧ part.path <+: place.path := by
  have isChild := List.mem_of_find?_eq_some first
  rcases held.self_or_below there inside with same | ⟨child, member, above⟩
  · exact .inl same
  rcases Nat.lt_trichotomy child.index declarator.index with early | same | late
  · exact .inr (.inl (.inr ⟨child, (mem_discarded first initial).mpr (.inl ⟨member, early⟩), above⟩))
  · rw [Node.eq_of_index member isChild same] at above
    rcases (held.child isChild).self_or_below there above with same | ⟨piece, among, beneath⟩
    · exact .inr (.inl (.inl same))
    by_cases kept : piece.index = value.index
    · have same : piece = value := Node.eq_of_index among (Node.mem_of_initializer? initial) kept
      exact .inr (.inr ⟨piece, .inl same, beneath⟩)
    · exact .inr (.inl (.inr ⟨piece, (mem_discarded first initial).mpr (.inr ⟨among, kept⟩), beneath⟩))
  · exact .inr (.inr ⟨child, .inr (Node.mem_drop_children.mpr ⟨member, late⟩), above⟩)

/-- What is written again is not left out. -/
theorem not_discarded {part : Node} (kept : part = value ∨ part ∈ node.children.drop (declarator.index + 1))
    (beneath : part.path <+: place.path) :
    ¬ (place = declarator ∨ ∃ other ∈ discarded node, other.path <+: place.path) := by
  have isChild := List.mem_of_find?_eq_some first
  have isValue := Node.mem_of_initializer? initial
  rcases kept with rfl | retained
  · have up := (Node.prefix_of_mem_children isValue).trans beneath
    rintro (rfl | ⟨other, gone, above⟩)
    · have longer := beneath.length_le
      rw [(Node.mem_children isValue).2.1, List.length_append, List.length_singleton] at longer
      omega
    · rcases (mem_discarded first initial).mp gone with ⟨member, early⟩ | ⟨member, apart⟩
      · rw [Node.eq_of_prefix member isChild above up] at early
        exact Nat.lt_irrefl _ early
      · exact apart (congrArg Node.index (Node.eq_of_prefix member isValue above beneath))
  · obtain ⟨member, late⟩ := Node.mem_drop_children.mp retained
    have other : part ≠ declarator := by
      rintro rfl
      exact Nat.lt_irrefl _ late
    rintro (rfl | ⟨spare, gone, above⟩)
    · exact other (Node.eq_of_prefix member isChild beneath (List.prefix_refl _))
    · rcases (mem_discarded first initial).mp gone with ⟨among, early⟩ | ⟨among, _⟩
      · rw [Node.eq_of_prefix among member above beneath] at early
        exact Nat.lt_asymm early late
      · have up := (Node.prefix_of_mem_children among).trans above
        exact other (Node.eq_of_prefix member isChild beneath up)

end

variable {tree : Tree} {node declarator value : Node} {name : String}

/-- The fix looks for the name in the file with the new declaration. In the file as it was, this means: everywhere but in
the first declarator and in the pieces that are left out. -/
theorem unclaimed_renamedAt (found : Negated tree node name) (shape : tree.WellFormed)
    (first : node.firstDeclarator? = some declarator) (initial : declarator.initializer? = some value)
    (literal : node.tree.literal? = some value.tree) :
    Unclaimed name (renamedAt tree node name value.tree) ↔
      ∀ place, tree.Holds place → place.tree.introduced? = some name →
        place = declarator ∨ ∃ part ∈ discarded node, part.path <+: place.path := by
  have sound := found.sound shape
  have held : tree.Holds node := ⟨found.root_eq, found.valid⟩
  have isChild := List.mem_of_find?_eq_some first
  have heldValue : tree.Holds value := (held.child isChild).child (Node.mem_of_initializer? initial)
  have retained : node.tree.others = (node.children.drop (declarator.index + 1)).map Node.tree := by
    rw [others, ← index_firstDeclarator? first, List.map_drop, Node.map_tree_children]
  rw [renamedAt, unclaimed_replaceAt found.present sound (replaces_renamed found shape literal),
    unclaimed_renamed sound literal (affirmed_ne found.parts.2.2), retained, List.forall_mem_map]
  constructor
  · rintro ⟨around, inValue, behind⟩ place there introduced
    by_cases inside : node.path <+: place.path
    · rcases below_cases first initial held there inside with rfl | gone | ⟨part, kept, beneath⟩
      · rw [Tree.introduced?, show place.tree.kind = _ from found.kind_eq] at introduced
        cases introduced
      · exact gone
      · rcases kept with rfl | kept
        · exact absurd introduced ((unclaimed_below heldValue.present).mp inValue place there beneath)
        · have heldPart := held.child (Node.mem_drop_children.mp kept).1
          exact absurd introduced ((unclaimed_below heldPart.present).mp (behind part kept) place there beneath)
    · exact absurd introduced (around place there inside)
  · intro only
    refine ⟨?_, ?_, ?_⟩
    · intro place there apart introduced
      rcases only place there introduced with rfl | ⟨part, gone, beneath⟩
      · exact apart (Node.prefix_of_mem_children isChild)
      · refine apart (List.IsPrefix.trans ?_ beneath)
        rcases (mem_discarded first initial).mp gone with ⟨member, _⟩ | ⟨member, _⟩
        · exact Node.prefix_of_mem_children member
        · exact (Node.prefix_of_mem_children isChild).trans (Node.prefix_of_mem_children member)
    · refine (unclaimed_below heldValue.present).mpr fun place there beneath introduced => ?_
      exact not_discarded first initial (.inl rfl) beneath (only place there introduced)
    · intro part kept
      have heldPart := held.child (Node.mem_drop_children.mp kept).1
      refine (unclaimed_below heldPart.present).mpr fun place there beneath introduced => ?_
      exact not_discarded first initial (.inr kept) beneath (only place there introduced)

/-- Nodes that introduce the name, as the tokens they introduce it with. -/
theorem introduced_iff {own : Node} (found : Negated tree node name) (first : node.firstDeclarator? = some declarator)
    (named : declarator.declaratorName? = some own) (initial : declarator.initializer? = some value) :
    (∀ place, tree.Holds place → place.tree.introduced? = some name →
        place = declarator ∨ ∃ part ∈ discarded node, part.path <+: place.path) ↔
      ∀ token, tree.Holds token → token.isIntroduced → token.spelling = name → token ≠ own →
        ∃ part ∈ discarded node, part.path <+: token.path := by
  have held : tree.Holds node := ⟨found.root_eq, found.valid⟩
  have isChild := List.mem_of_find?_eq_some first
  have heldDeclarator := held.child isChild
  have kind : declarator.kind = .variableDeclarator := by simpa using List.find?_some first
  have introduces : declarator.introducedName? = some own := by rw [Node.introducedName?, kind, named]
  constructor
  · intro only token there introduced spelled other
    obtain ⟨parent, sameRoot, valid, known⟩ := (Node.isIntroduced_iff there.valid).mp introduced
    have claimed : parent.tree.introduced? = some name := by
      rw [← Node.map_spelling_introducedName?, known, Option.map_some, spelled]
    rcases only parent ⟨sameRoot.trans there.root_eq, valid⟩ claimed with rfl | ⟨part, gone, beneath⟩
    · exact absurd (Option.some.inj (known.symm.trans introduces)) other
    · exact ⟨part, gone, beneath.trans (Node.prefix_of_mem_children (Node.introducedName?_mem _ known).1)⟩
  · intro alone place there introduced
    rw [← Node.map_spelling_introducedName?, Option.map_eq_some_iff] at introduced
    obtain ⟨token, known, spelled⟩ := introduced
    obtain ⟨child, _⟩ := Node.introducedName?_mem _ known
    have heldToken := there.child child
    by_cases same : token = own
    · rw [same] at child
      exact .inl (there.eq_of_child heldDeclarator child (List.mem_of_find?_eq_some named))
    have isName : token.isIntroduced :=
      (Node.isIntroduced_iff heldToken.valid).mpr ⟨place, there.root_eq.trans heldToken.root_eq.symm, there.valid, known⟩
    obtain ⟨part, gone, beneath⟩ := alone token heldToken isName spelled same
    rw [(Node.mem_children child).2.1, List.prefix_concat_iff, ← (Node.mem_children child).2.1] at beneath
    rcases beneath with whole | above
    · -- The token itself is left out, so it is a child of the declaration or of its first declarator.
      rcases (mem_discarded first initial).mp gone with ⟨member, _⟩ | ⟨member, _⟩
      · rw [(held.child member).eq_of_path heldToken whole] at member
        rw [there.eq_of_child held child member, Node.introducedName?, found.kind_eq] at known
        cases known
      · rw [(heldDeclarator.child member).eq_of_path heldToken whole] at member
        exact .inl (there.eq_of_child heldDeclarator child member)
    · exact .inr ⟨part, gone, above⟩

/-- A declaration whose first declarator can lose the negation in its name. -/
structure Renamable (declaration declarator own value : Node) : Prop where
  first : declaration.firstDeclarator? = some declarator
  named : declarator.declaratorName? = some own
  initial : declarator.initializer? = some value
  literal : value.isLiteral
  starts : startsName (Name.affirmed own.spelling)
  /-- The name is introduced once only, apart from the pieces that are left out. -/
  alone : ∀ token, declaration.root.Holds token → token.isIntroduced → token.spelling = own.spelling → token ≠ own →
    ∃ part ∈ discarded declaration, part.path <+: token.path

theorem exists_renamable (found : Negated tree node name) (shape : tree.WellFormed) :
    (∃ fixed, negatedName tree node.span = .ok fixed) ↔
      ∃ declarator own value, Renamable node declarator own value := by
  have known := found.parts.2.1
  rw [← Node.declaredName?_eq, Node.declaredName?] at known
  simp only [negatedName_eq_ok found shape]
  constructor
  · rintro ⟨_, starts, _, literal, unclaimed, _⟩
    obtain ⟨declarator, value, first, initial, isLiteral, rfl⟩ := nodes_of_literal? literal
    rw [first, Option.bind_some, Option.map_eq_some_iff] at known
    obtain ⟨own, named, rfl⟩ := known
    have places := (unclaimed_renamedAt found shape first initial literal).mp unclaimed
    refine ⟨declarator, own, value, first, named, initial, isLiteral, starts, ?_⟩
    rw [found.root_eq]
    exact (introduced_iff found first named initial).mp places
  · rintro ⟨declarator, own, value, able⟩
    rw [able.first, Option.bind_some, able.named, Option.map_some, Option.some_inj] at known
    subst known
    have literal := node.map_tree_literal?
    rw [able.first, Option.bind_some, able.initial, Option.filter_some, if_pos able.literal, Option.map_some] at literal
    have alone := able.alone
    rw [found.root_eq] at alone
    have places := (introduced_iff found able.first able.named able.initial).mpr alone
    have unclaimed := (unclaimed_renamedAt found shape able.first able.initial literal.symm).mpr places
    exact ⟨_, able.starts, _, literal.symm, unclaimed, rfl⟩

theorem negatedName_refused (found : Negated tree node name) (shape : tree.WellFormed)
    (failed : ¬ ∃ fixed, negatedName tree node.span = .ok fixed) :
    ∃ mismatch, negatedName tree node.span = .error (refuse mismatch) := by
  rw [negatedName_eq found shape] at failed ⊢
  by_cases starts : startsName (Name.affirmed name)
  · rw [if_pos starts] at failed ⊢
    cases literal : node.tree.literal? with
    | none => exact ⟨_, rfl⟩
    | some value =>
      simp only [literal] at failed
      split at failed
      next again => exact ⟨_, if_pos again⟩
      next => exact absurd ⟨_, rfl⟩ failed
  · exact ⟨_, if_neg starts⟩

structure Convertible (access : Node) (receiver : Receiver) (body brace : Node) : Prop where
  reached : access.receiver? = some receiver
  isBody : receiver.definition.classBody? = some body
  member : brace ∈ body.children
  punctuation : brace.kind = .punctuation
  closing : brace.spelling = "\x7d"

variable {receiver : Receiver}

theorem exists_convertible (found : Unconverted tree node receiver) (shape : tree.WellFormed) :
    (∃ fixed, missingToString tree node.span = .ok fixed) ↔
      ∃ receiver body brace, Convertible node receiver body brace := by
  simp only [missingToString_eq_ok found shape]
  constructor
  · rintro ⟨_, body, close, isBody, shut, _⟩
    obtain ⟨brace, member, isBrace⟩ := exists_closingBrace.mp ⟨close, shut⟩
    simp only [Tree.isBrace, Bool.and_eq_true, decide_eq_true_eq] at isBrace
    exact ⟨receiver, body, brace, found.receiver_eq, isBody, member, isBrace.1, isBrace.2⟩
  · rintro ⟨other, body, brace, able⟩
    obtain rfl : other = receiver := Option.some.inj (able.reached.symm.trans found.receiver_eq)
    have isBrace : brace.tree.isBrace := by
      rw [Tree.isBrace, Bool.and_eq_true, decide_eq_true_eq, decide_eq_true_eq]
      exact ⟨able.punctuation, able.closing⟩
    obtain ⟨close, shut⟩ := exists_closingBrace.mpr ⟨brace, able.member, isBrace⟩
    exact ⟨_, body, close, able.isBody, shut, rfl⟩

theorem missingToString_refused (found : Unconverted tree node receiver) (shape : tree.WellFormed)
    (failed : ¬ ∃ fixed, missingToString tree node.span = .ok fixed) :
    ∃ mismatch, missingToString tree node.span = .error (reject mismatch) := by
  rw [missingToString_eq found shape] at failed ⊢
  cases isBody : receiver.definition.classBody? with
  | none => exact ⟨_, rfl⟩
  | some body =>
    simp only [isBody] at failed ⊢
    cases shut : closingBrace? body with
    | none => exact ⟨_, rfl⟩
    | some close =>
      simp only [shut] at failed
      exact absurd ⟨_, rfl⟩ failed

end Fix

/-- What the fix for a report asks of the file. -/
def Defect.Fixable (defect : Defect) : Prop :=
  match defect.rule with
  | .negatedName => ∃ declarator own value, Fix.Renamable defect.anchor declarator own value
  | .missingToString => ∃ receiver body brace, Fix.Convertible defect.anchor receiver body brace

private theorem decided {result : Except FixError Tree} {rule : Rule} {able : Prop}
    (fits : (∃ fixed, result = .ok fixed) ↔ able)
    (refused : ¬ (∃ fixed, result = .ok fixed) → ∃ mismatch, result = .error (.malformed rule mismatch)) :
    ((∃ fixed, result = .ok fixed) ↔ able) ∧
      ((∃ mismatch, result = .error (.malformed rule mismatch)) ↔ ¬ able) := by
  refine ⟨fits, ?_, ?_⟩
  · rintro ⟨mismatch, failed⟩ holds
    obtain ⟨fixed, done⟩ := fits.mpr holds
    rw [failed] at done
    cases done
  · intro lacking
    exact refused (mt fits.mp lacking)

/-- Every report is fixed or refused for what the file is like, and only for that. -/
theorem fixIn_ok_iff {rules : List Rule} {tree : Tree} {defect : Defect} (shape : tree.WellFormed)
    (reported : defect ∈ detect rules tree) :
    ((∃ fixed, defect.fixIn tree = .ok fixed) ↔ defect.Fixable) ∧
      ((∃ mismatch, defect.fixIn tree = .error (.malformed defect.rule mismatch)) ↔ ¬ defect.Fixable) := by
  rcases detect_cases reported with ⟨_, node, name, found, rfl⟩ | ⟨node, receiver, found, rfl⟩
  · rw [FixState.fixIn_negatedName]
    exact decided (Fix.exists_renamable found shape) (Fix.negatedName_refused found shape)
  · rw [FixState.fixIn_missingToString]
    exact decided (Fix.exists_convertible found shape) (Fix.missingToString_refused found shape)

def reintroduced : Tree :=
  .node .compilationUnit
    [.node .variableDeclaration
      [.token .predefinedType "" "bool", .node .parameter [.token .identifier " " "notA"],
        .node .variableDeclarator
          [.token .identifier " " "notA", .token .punctuation " " "=", .token .literalToken " " "true"]],
      .token .punctuation "" ";",
      .node .variableDeclaration
        [.token .predefinedType "\n" "bool",
          .node .variableDeclarator
            [.token .identifier " " "notB", .token .punctuation " " "=", .token .literalToken " " "true"],
          .token .punctuation "" ",", .node .variableDeclarator [.token .identifier " " "notB"]],
      .token .punctuation "" ";"]

theorem fixIn_ok_iff_reintroduced :
    ∃ first second fixed mismatch, (detect Rule.all reintroduced)[0]? = some first ∧
      (detect Rule.all reintroduced)[1]? = some second ∧ first.Fixable ∧ first.fixIn reintroduced = .ok fixed ∧
      ¬ second.Fixable ∧ second.fixIn reintroduced = .error (.malformed second.rule mismatch) := by
  have shape : reintroduced.WellFormed := by
    simp [reintroduced, Tree.WellFormed, Tree.AllWellFormed, Kind.isToken]
  have one : ((detect Rule.all reintroduced)[0]?.map fun defect =>
      (defect.rule, (defect.fixIn reintroduced).toOption.isSome)) = some (.negatedName, true) := by
    decide +kernel
  have two : ((detect Rule.all reintroduced)[1]?.map fun defect => (defect.fixIn reintroduced).toOption.isSome) =
      some false := by
    decide +kernel
  obtain ⟨first, fixed, here, _, done⟩ := exists_fixed one
  obtain ⟨second, there, fails⟩ := Option.map_eq_some_iff.mp two
  obtain ⟨able, _⟩ := fixIn_ok_iff shape (List.mem_of_getElem? here)
  obtain ⟨only, refused⟩ := fixIn_ok_iff shape (List.mem_of_getElem? there)
  have lacking : ¬ second.Fixable := by
    intro holds
    obtain ⟨fixed, result⟩ := only.mpr holds
    rw [result] at fails
    cases fails
  obtain ⟨mismatch, failed⟩ := refused.mpr lacking
  exact ⟨first, second, fixed, mismatch, here, there, able.mp ⟨fixed, done⟩, done, lacking, failed⟩

/-- A class with two bodies, of which only the second one has a closing brace. -/
def twoBodies : Tree :=
  .node .compilationUnit
    [.node .variableDeclaration
      [.token .implicitType "" "var",
        .node .variableDeclarator
          [.token .identifier " " "a", .token .punctuation " " "=",
            .node .objectCreation [.token .keyword " " "new", .token .identifier " " "A"]]],
      .node .memberAccess [.token .identifier "\n" "a", .token .punctuation "" ".", .token .identifier "" "ToString"],
      .node .classDeclaration
        [.token .keyword "\n" "class", .token .identifier " " "A",
          .node .declarationList [.token .punctuation " " "\x7b"],
          .node .declarationList [.token .punctuation " " "\x7d"]]]

/-- The fix looks at the first body only. -/
theorem fixIn_refused_twoBodies :
    ∃ defect receiver, twoBodies.WellFormed ∧ defect ∈ detect Rule.all twoBodies ∧ defect.rule = .missingToString ∧
      defect.anchor.receiver? = some receiver ∧
      (∃ body ∈ receiver.definition.children, body.kind = .declarationList ∧
        ∃ brace ∈ body.children, brace.kind = .punctuation ∧ brace.spelling = "\x7d") ∧
      defect.fixIn twoBodies = .error (.malformed .missingToString .openBody) := by
  have shape : twoBodies.WellFormed := by
    simp [twoBodies, Tree.WellFormed, Tree.AllWellFormed, Kind.isToken]
  have computed : ((detect Rule.all twoBodies)[0]?.bind fun defect => defect.anchor.receiver?.map fun receiver =>
      (defect.rule,
        receiver.definition.children.any fun body => body.kind = .declarationList &&
          body.children.any fun brace => brace.kind = .punctuation && brace.spelling = "\x7d",
        receiver.definition.classBody?.map fun body => (Fix.closingBrace? body).isSome)) =
      some (.missingToString, true, some false) := by
    decide +kernel
  obtain ⟨defect, known, rest⟩ := Option.bind_eq_some_iff.mp computed
  obtain ⟨receiver, reached, result⟩ := Option.map_eq_some_iff.mp rest
  have reported := List.mem_of_getElem? known
  simp only [Prod.mk.injEq, List.any_eq_true, Bool.and_eq_true, decide_eq_true_eq] at result
  obtain ⟨rule, holds, isOpen⟩ := result
  refine ⟨defect, receiver, shape, reported, rule, reached, holds, ?_⟩
  rcases detect_cases reported with ⟨_, node, name, _, rfl⟩ | ⟨node, target, found, rfl⟩
  · cases rule
  obtain rfl : target = receiver := Option.some.inj (found.receiver_eq.symm.trans reached)
  obtain ⟨body, isBody, none⟩ := Option.map_eq_some_iff.mp isOpen
  rw [Option.isSome_eq_false_iff, Option.isNone_iff_eq_none] at none
  rw [FixState.fixIn_missingToString, Fix.missingToString_eq found shape]
  simp only [isBody, none]
  rfl

end TreeLint
