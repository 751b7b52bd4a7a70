import TreeLint.Proofs.Rounds

/-! Why fixing a file ends. A renamed declaration has three characters less in its name and no other
declaration has more, and a class that got its method never needs it again. Rounds that only give a
site up change no tree, but leave one report less to try. -/

namespace TreeLint

/-- How often the first names of the boolean declarations could lose a prefix. -/
def Tree.removablePrefixes (tree : Tree) : Nat :=
  ((tree.asNode.selfAndDescendants.filter fun node => node.kind = .variableDeclaration && node.isBool).map
    fun node => (node.declaredName?.getD "").length / Name.negationLength).sum

/-- The number of classes that do not declare a string conversion themselves. -/
def Tree.missingConversions (tree : Tree) : Nat :=
  (tree.asNode.selfAndDescendants.filter fun node =>
    node.kind = .classDeclaration && !node.declaresMethod toStringName).length

namespace Role

def prefixes : Role → Nat
  | declaration true name _ => (name.getD "").length / Name.negationLength
  | _ => 0

def conversions : Role → Nat
  | definition _ false => 1
  | _ => 0

end Role

namespace Tree

private theorem prefixes_of_kind {tree : Tree} (other : tree.kind ≠ .variableDeclaration) : tree.role.prefixes = 0 := by
  rw [role]
  split
  next kind => exact absurd kind other
  next => rfl
  next => rfl

private theorem conversions_of_kind {tree : Tree} (other : tree.kind ≠ .classDeclaration) :
    tree.role.conversions = 0 := by
  rw [role]
  split
  next => rfl
  next kind => exact absurd kind other
  next => rfl

private theorem sum_nodes (weigh : Tree → Nat) (tree : Tree) :
    (tree.asNode.selfAndDescendants.map fun node => weigh node.tree).sum = tally weigh tree := by
  rw [tally, ← show tree.asNode.tree = tree from rfl, ← map_tree_selfAndDescendants, List.map_map]
  rfl

theorem removablePrefixes_eq (tree : Tree) : tree.removablePrefixes = tally (fun tree => tree.role.prefixes) tree := by
  rw [removablePrefixes, ← sum_nodes]
  induction tree.asNode.selfAndDescendants with
  | nil => rfl
  | cons node rest ih =>
    rw [List.filter_cons, List.map_cons, List.sum_cons, ← ih, node.isBool_eq]
    by_cases kind : node.kind = .variableDeclaration
    · rw [role_declaration kind]
      cases bool : node.tree.isBool <;> simp [kind, Role.prefixes, Node.declaredName?_eq]
    · simp [kind, prefixes_of_kind kind]

theorem missingConversions_eq (tree : Tree) :
    tree.missingConversions = tally (fun tree => tree.role.conversions) tree := by
  rw [missingConversions, ← sum_nodes]
  induction tree.asNode.selfAndDescendants with
  | nil => rfl
  | cons node rest ih =>
    rw [List.filter_cons, List.map_cons, List.sum_cons, ← ih, node.declaresMethod_eq]
    by_cases kind : node.kind = .classDeclaration
    · rw [role_definition kind]
      cases complete : node.tree.declares toStringName <;> simp [kind, Role.conversions]
      omega
    · simp [kind, conversions_of_kind kind]

end Tree

namespace Fix

theorem Renamed.fewer_prefixes {tree fixed : Tree} {node : Node} {name : String} (effect : Renamed tree node name fixed)
    (negated : Name.isNegated name) : fixed.removablePrefixes < tree.removablePrefixes := by
  have change := effect.tally Role.prefixes rfl
  have long := Name.length_of_isNegated negated
  have short := Name.length_affirmed name
  simp only [Role.prefixes, Option.getD_some, Name.negationLength] at change
  rw [Tree.removablePrefixes_eq, Tree.removablePrefixes_eq]
  simp only [Role.prefixes, Name.negationLength]
  omega

theorem Renamed.conversions_le {tree fixed : Tree} {node : Node} {name : String} (effect : Renamed tree node name fixed) :
    fixed.missingConversions ≤ tree.missingConversions := by
  have change := effect.tally Role.conversions rfl
  rw [Tree.missingConversions_eq, Tree.missingConversions_eq]
  exact change

theorem Converted.fewer_conversions {tree fixed : Tree} {definition : Node} (effect : Converted tree definition fixed) :
    fixed.missingConversions + 1 = tree.missingConversions := by
  have change := effect.tally Role.conversions rfl
  rw [Tree.missingConversions_eq, Tree.missingConversions_eq]
  exact change

theorem Converted.prefixes_eq {tree fixed : Tree} {definition : Node} (effect : Converted tree definition fixed) :
    fixed.removablePrefixes = tree.removablePrefixes := by
  have change := effect.tally Role.prefixes rfl
  rw [Tree.removablePrefixes_eq, Tree.removablePrefixes_eq]
  exact change

end Fix

namespace FixState

def pending (rules : List Rule) (keep : Tree → Defect → Bool) (state : FixState) : List Defect :=
  (detect rules state.tree).filter fun defect => keep state.tree defect && !state.givenUp.contains defect.site

def budget (state : FixState) : Nat :=
  state.tree.removablePrefixes + state.tree.missingConversions

def appliedOf (rule : Rule) (state : FixState) : Nat :=
  state.applied.countP fun fix => fix.ruleId = rule.id

variable {rules : List Rule} {keep : Tree → Defect → Bool} {state : FixState} {defect : Defect}

theorem pending_giveUp (candidate : state.candidate? rules keep = some defect) :
    ((state.giveUp defect).pending rules keep).length < (state.pending rules keep).length := by
  have untried := not_givenUp_of_candidate? candidate
  have narrowed : (state.giveUp defect).pending rules keep =
      (state.pending rules keep).filter fun other => other.site ≠ defect.site := by
    rw [pending, pending, List.filter_filter]
    congr 1
    funext other
    simp [giveUp, Bool.and_left_comm]
  rw [narrowed, List.length_filter_lt_length_iff_exists]
  refine ⟨defect, ?_, by simp⟩
  rw [pending, List.mem_filter]
  exact ⟨mem_detect_of_candidate? candidate, by simp [untried]⟩

/-- Each round lowers the budget, or keeps the tree and leaves less to try. -/
theorem attempt_decreases (shape : state.tree.WellFormed) (candidate : state.candidate? rules keep = some defect) :
    (state.attempt defect).budget < state.budget ∨
      (state.attempt defect).budget = state.budget ∧
        ((state.attempt defect).pending rules keep).length < (state.pending rules keep).length := by
  cases step_of_candidate? candidate with
  | renamed node name fixed found same fits next =>
    have effect := Fix.renamed_of_ok found shape fits
    have fewer := effect.fewer_prefixes found.parts.2.2
    have most := effect.conversions_le
    left
    rw [next]
    simp only [budget, succeed]
    omega
  | converted node receiver fixed found same fits next =>
    have effect := Fix.converted_of_ok found shape fits
    have fewer := effect.fewer_conversions
    have equal := effect.prefixes_eq
    left
    rw [next]
    simp only [budget, succeed]
    omega
  | givenUp why next =>
    right
    rw [next]
    exact ⟨rfl, pending_giveUp candidate⟩

theorem exists_rounds (state : FixState) (shape : state.tree.WellFormed) :
    ∃ count, (state.rounds rules keep count).candidate? rules keep = none := by
  cases candidate : state.candidate? rules keep with
  | none => exact ⟨0, candidate⟩
  | some defect =>
    -- Pairs of the budget and the number of pending reports, in lexicographic order.
    have less := attempt_decreases shape candidate
    obtain ⟨count, ended⟩ := exists_rounds (state.attempt defect) (wellFormed_attempt shape candidate)
    refine ⟨count + 1, ?_⟩
    rw [rounds, round?, candidate]
    exact ended
termination_by (state.budget, (state.pending rules keep).length)
decreasing_by
  rcases less with lower | ⟨same, fewer⟩
  · exact Prod.Lex.left _ _ lower
  · rw [same]
    exact Prod.Lex.right _ fewer

theorem appliedOf_succeed (rule : Rule) (fixed : Tree) :
    (state.succeed defect fixed).appliedOf rule = state.appliedOf rule + if defect.rule = rule then 1 else 0 := by
  have sameId : defect.rule.id = rule.id ↔ defect.rule = rule := by
    cases defect.rule <;> cases rule <;> decide
  rw [appliedOf, succeed, List.countP_append, List.countP_singleton, appliedOf]
  simp [sameId]

/-- A state in which each fix is paid for by what there is less to fix than in the input tree. -/
structure Paid (tree : Tree) (state : FixState) : Prop where
  shape : state.tree.WellFormed
  names : state.appliedOf .negatedName + state.tree.removablePrefixes ≤ tree.removablePrefixes
  classes : state.appliedOf .missingToString + state.tree.missingConversions ≤ tree.missingConversions

theorem Paid.attempt {tree : Tree} (paid : Paid tree state) (candidate : state.candidate? rules keep = some defect) :
    Paid tree (state.attempt defect) := by
  have names := paid.names
  have classes := paid.classes
  have shape := wellFormed_attempt paid.shape candidate
  cases step_of_candidate? candidate with
  | renamed node name fixed found same fits next =>
    have effect := Fix.renamed_of_ok found paid.shape fits
    have fewer := effect.fewer_prefixes found.parts.2.2
    have most := effect.conversions_le
    refine ⟨shape, ?_, ?_⟩
    all_goals
      rw [next, appliedOf_succeed, same]
      simp only [succeed, reduceCtorEq, if_true, if_false]
      omega
  | converted node receiver fixed found same fits next =>
    have effect := Fix.converted_of_ok found paid.shape fits
    have fewer := effect.fewer_conversions
    have equal := effect.prefixes_eq
    refine ⟨shape, ?_, ?_⟩
    all_goals
      rw [next, appliedOf_succeed, same]
      simp only [succeed, reduceCtorEq, if_true, if_false]
      omega
  | givenUp why next =>
    rw [next]
    exact ⟨paid.shape, names, classes⟩

theorem paid_start {tree : Tree} (shape : tree.WellFormed) : Paid tree (start tree) :=
  ⟨shape, by simp [start, appliedOf], by simp [start, appliedOf]⟩

/-- The rounds come to an end by themselves, and each rule is applied no more often than the input
tree has prefixes or classes for it. -/
theorem rounds_end (rules : List Rule) (keep : Tree → Defect → Bool) {tree : Tree} (shape : tree.WellFormed) :
    (∃ count, ((start tree).rounds rules keep count).candidate? rules keep = none) ∧
      ∀ count, ((start tree).rounds rules keep count).appliedOf .negatedName ≤ tree.removablePrefixes ∧
        ((start tree).rounds rules keep count).appliedOf .missingToString ≤ tree.missingConversions := by
  refine ⟨exists_rounds (start tree) shape, ?_⟩
  intro count
  have paid : Paid tree ((start tree).rounds rules keep count) :=
    rounds_induction (fun _ _ paid candidate => paid.attempt candidate) (paid_start shape) count
  have names := paid.names
  have classes := paid.classes
  omega

def doubled : Tree :=
  .node .compilationUnit
    [.node .variableDeclaration
      [.token .predefinedType "" "bool",
        .node .variableDeclarator
          [.token .identifier " " "notNotReady", .token .punctuation " " "=", .token .literalToken " " "true"]],
      .token .punctuation "" ";"]

theorem rounds_end_doubled :
    doubled.WellFormed ∧ doubled.removablePrefixes = 3 ∧ doubled.missingConversions = 0 ∧
      (∃ count, ((start doubled).rounds Rule.all (fun _ _ => true) count).candidate? Rule.all (fun _ _ => true) = none) ∧
      ∀ count, ((start doubled).rounds Rule.all (fun _ _ => true) count).appliedOf .negatedName ≤ 3 ∧
        ((start doubled).rounds Rule.all (fun _ _ => true) count).appliedOf .missingToString ≤ 0 := by
  have shape : doubled.WellFormed := by
    simp [doubled, Tree.WellFormed, Tree.AllWellFormed, Kind.isToken]
  exact ⟨shape, by decide, by decide, rounds_end Rule.all (fun _ _ => true) shape⟩

end FixState

end TreeLint
