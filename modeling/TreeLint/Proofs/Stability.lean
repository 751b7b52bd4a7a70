import TreeLint.Proofs.Grammatical
import TreeLint.Proofs.Rounds

/-! Fixing a fixed file changes nothing. A site that was given up stays stuck, and a site that was
fixed is not reported under its old name again, because later rounds leave the place of either of them
as it is: reports are tried from the outside in, so nothing around a tried declaration is renamed
after it, and a new method goes behind everything else in its class. -/

namespace TreeLint

namespace FixState
open TreeLint.Tree

/-- What can be seen at a site that was fixed. -/
inductive Fixed (tree : Tree) : FixSite → Prop where
  | renamed {path : List Nat} {name shorter : String} {bool literal : Bool}
      (here : tree.roleAt path = .declaration bool (some shorter) literal) (less : shorter.length < name.length) :
      Fixed tree ⟨.negatedName, path, [name]⟩
  | converted {path : List Nat} {arguments : List String} {closed : Bool}
      (here : tree.roleAt path = .definition closed true) : Fixed tree ⟨.missingToString, path, arguments⟩

/-- Why the fix of a site is refused. -/
inductive Stuck (tree : Tree) : FixSite → Prop where
  | unset {path : List Nat} {name : String} {bool : Bool} {declared : Option String}
      (here : tree.roleAt path = .declaration bool declared false) : Stuck tree ⟨.negatedName, path, [name]⟩
  | nameless {path : List Nat} {name : String} (here : (tree.roleAt path).isDeclaration)
      (unfit : Fix.startsName (Name.affirmed name) = false) : Stuck tree ⟨.negatedName, path, [name]⟩
  | claimed {path : List Nat} {name : String} (here : (tree.roleAt path).isDeclaration)
      (often : 2 ≤ tally (claims name) tree) : Stuck tree ⟨.negatedName, path, [name]⟩
  | unclosed {path : List Nat} {arguments : List String} {complete : Bool}
      (here : tree.roleAt path = .definition false complete) : Stuck tree ⟨.missingToString, path, arguments⟩

theorem Fixed.mono {tree later : Tree} {site : FixSite} (fixed : Fixed tree site)
    (same : later.roleAt site.path = tree.roleAt site.path) : Fixed later site := by
  cases fixed with
  | renamed here less => exact .renamed (same.trans here) less
  | converted here => exact .converted (same.trans here)

theorem Stuck.mono {tree later : Tree} {site : FixSite} (stuck : Stuck tree site)
    (same : later.roleAt site.path = tree.roleAt site.path)
    (often : ∀ name, 2 ≤ tally (claims name) tree → 2 ≤ tally (claims name) later) : Stuck later site := by
  cases stuck with
  | unset here => exact .unset (same.trans here)
  | nameless here unfit => exact .nameless (by rw [same]; exact here) unfit
  | claimed here many => exact .claimed (by rw [same]; exact here) (often _ many)
  | unclosed here => exact .unclosed (same.trans here)

/-- Every site that was tried is settled, and so are all reported declarations around it. -/
structure Settled (state : FixState) : Prop where
  tidy : Tidy state.tree
  fixed : ∀ site ∈ state.done, Fixed state.tree site
  stuck : ∀ site ∈ state.givenUp, Stuck state.tree site
  around : ∀ site, site ∈ state.done ∨ site ∈ state.givenUp → site.rule = .negatedName →
    ∀ path name, path <+: site.path → path ≠ site.path → (state.tree.roleAt path).negated? = some name →
      ⟨.negatedName, path, [name]⟩ ∈ state.givenUp

variable {rules : List Rule} {state : FixState} {defect : Defect}

def keepAll (_ : Tree) (_ : Defect) : Bool := true

/-- When a declaration is tried, all reported declarations around it have been given up. -/
theorem givenUp_of_around (candidate : state.candidate? rules keepAll = some defect) (rule : defect.rule = .negatedName)
    {path : List Nat} {name : String} (up : path <+: defect.anchor.path) (proper : path ≠ defect.anchor.path)
    (negated : (state.tree.roleAt path).negated? = some name) : ⟨.negatedName, path, [name]⟩ ∈ state.givenUp := by
  have reported := mem_detect_of_candidate? candidate
  obtain ⟨enabled, node, _, found, rfl⟩ | ⟨_, _, _, rfl⟩ := detect_cases reported
  · have declared : (state.tree.roleAt path).isDeclaration := by
      cases role : state.tree.roleAt path <;> rw [role] at negated <;> first | rfl | cases negated
    obtain ⟨outer, present, kind⟩ := get?_of_isDeclaration declared
    rw [roleAt_eq present] at negated
    have around : Negated state.tree ⟨state.tree, path, outer⟩ name := ⟨rfl, present, kind, negated⟩
    -- The outer declaration is reported too, and earlier: it can only have been passed over.
    have first := around.mem_detect enabled
    obtain ⟨_, front, behind, split, early⟩ := List.find?_eq_some_iff_append.mp candidate
    have order := pairwise_detect rules state.tree
    rw [split] at first order
    rcases List.mem_append.mp first with before | later
    · have passed := early _ before
      simpa [hasFix_id, keepAll, Defect.site] using passed
    · rcases List.mem_cons.mp later with same | behind
      · exact absurd (congrArg (fun defect => defect.anchor.path) same) proper
      · have outside := (List.pairwise_cons.mp (List.pairwise_append.mp order).2.1).1 _ behind
        exact absurd (outside up) proper
  · cases rule

theorem site_negatedName (node : Node) (arguments : List String) :
    Defect.site ⟨.negatedName, node, arguments⟩ = ⟨.negatedName, node.path, arguments⟩ :=
  rfl

theorem site_missingToString {node : Node} {receiver : Receiver} (known : node.receiver? = some receiver)
    (arguments : List String) :
    Defect.site ⟨.missingToString, node, arguments⟩ = ⟨.missingToString, receiver.definition.path, arguments⟩ := by
  simp [Defect.site, known]

section
variable {node : Node} {name : String} {tree : Tree}

/-- No site that was tried lies inside a declaration that is tried later. -/
theorem Settled.not_inside (settled : Settled state) (effect : Fix.Renamed state.tree node name tree)
    (negated : Name.isNegated name) (untried : ⟨.negatedName, node.path, [name]⟩ ∉ state.givenUp) {site : FixSite}
    (tried : site ∈ state.done ∨ site ∈ state.givenUp) (other : site.path ≠ node.path) : ¬ node.path <+: site.path := by
  intro up
  have inside (defined : (state.tree.roleAt site.path).isDefinition) : False := by
    obtain ⟨below, split⟩ := up
    rw [← split, settled.tidy.flat node.path below (by rw [effect.before]; rfl)] at defined
    cases defined
  have outer : (state.tree.roleAt node.path).negated? = some name := by
    rw [effect.before]
    simp [Role.negated?, Option.filter, negated]
  -- A declaration in there would have left the outer one given up; a class cannot be in there.
  cases rule : site.rule with
  | negatedName => exact untried (settled.around site tried rule node.path name up (Ne.symm other) outer)
  | missingToString =>
    rcases tried with done | given
    · cases settled.fixed site done with
      | renamed here less => cases rule
      | converted here => exact inside (by rw [here]; rfl)
    · cases settled.stuck site given with
      | unset here => cases rule
      | nameless here unfit => cases rule
      | claimed here often => cases rule
      | unclosed here => exact inside (by rw [here]; rfl)

theorem Fixed.renamed_here {site : FixSite} (fixed : Fixed state.tree site)
    (effect : Fix.Renamed state.tree node name tree) (negated : Name.isNegated name) (here : site.path = node.path) :
    Fixed tree site := by
  have long := Name.length_of_isNegated negated
  have short := Name.length_affirmed name
  cases fixed with
  | renamed seen less =>
    dsimp only at here
    rw [here, effect.before] at seen
    cases seen
    rw [here]
    exact .renamed effect.after (by omega)
  | converted seen =>
    dsimp only at here
    rw [here, effect.before] at seen
    cases seen

theorem Stuck.renamed_here {site : FixSite} (stuck : Stuck state.tree site)
    (effect : Fix.Renamed state.tree node name tree) (here : site.path = node.path)
    (often : ∀ other, 2 ≤ tally (claims other) state.tree → 2 ≤ tally (claims other) tree) : Stuck tree site := by
  have declared : (tree.roleAt node.path).isDeclaration := by rw [effect.after]; rfl
  cases stuck with
  | unset seen =>
    dsimp only at here
    rw [here, effect.before] at seen
    cases seen
  | nameless seen unfit =>
    dsimp only at here
    rw [here]
    exact .nameless declared unfit
  | claimed seen many =>
    dsimp only at here
    rw [here]
    exact .claimed declared (often _ many)
  | unclosed seen =>
    dsimp only at here
    rw [here, effect.before] at seen
    cases seen

theorem Settled.renamed (settled : Settled state) (candidate : state.candidate? rules keepAll = some defect)
    (found : Negated state.tree node name) (same : defect = ⟨.negatedName, node, [name]⟩)
    (fits : Fix.negatedName state.tree node.span = .ok tree) : Settled (state.succeed defect tree) := by
  have effect := Fix.renamed_of_ok found settled.tidy.shape fits
  have negated := found.parts.2.2
  have untried := (not_givenUp_of_candidate? candidate).1
  subst same
  rw [site_negatedName] at untried
  have often (other : String) (many : 2 ≤ tally (claims other) state.tree) : 2 ≤ tally (claims other) tree :=
    Fix.claimed_of_ok found settled.tidy fits many
  refine ⟨Fix.tidy_of_renamed found settled.tidy fits, ?_, ?_, ?_⟩
  · intro site member
    rcases List.mem_cons.mp member with rfl | old
    · have long := Name.length_of_isNegated negated
      exact .renamed effect.after (by rw [Name.length_affirmed]; omega)
    · by_cases here : site.path = node.path
      · exact (settled.fixed site old).renamed_here effect negated here
      · exact (settled.fixed site old).mono
          (effect.elsewhere _ (settled.not_inside effect negated untried (.inl old) here))
  · intro site given
    by_cases here : site.path = node.path
    · exact (settled.stuck site given).renamed_here effect here often
    · exact (settled.stuck site given).mono
        (effect.elsewhere _ (settled.not_inside effect negated untried (.inr given) here)) often
  · intro site tried rule path other up proper reported
    replace tried := or_assoc.mp (tried.imp_left List.mem_cons.mp)
    have apart : ¬ node.path <+: path := by
      intro down
      by_cases here : site.path = node.path
      · rw [here] at up proper
        exact proper (up.eq_of_length_le down.length_le)
      · rcases tried with rfl | old
        · exact here rfl
        · exact settled.not_inside effect negated untried old here (down.trans up)
    have unchanged : (state.tree.roleAt path).negated? = some other := by
      rw [← effect.elsewhere path apart]
      exact reported
    rcases tried with rfl | old
    · exact givenUp_of_around candidate rfl up proper unchanged
    · exact settled.around site old rule path other up proper unchanged

end

section
variable {node : Node} {receiver : Receiver} {tree : Tree}

theorem Fixed.converted_here {site : FixSite} (fixed : Fixed state.tree site)
    (effect : Fix.Converted state.tree receiver.definition tree) (here : site.path = receiver.definition.path) :
    Fixed tree site := by
  cases fixed with
  | renamed seen less =>
    dsimp only at here
    rw [here, effect.before] at seen
    cases seen
  | converted seen =>
    dsimp only at here
    rw [here]
    exact .converted effect.after

theorem Stuck.not_converted {site : FixSite} (stuck : Stuck state.tree site)
    (effect : Fix.Converted state.tree receiver.definition tree) : site.path ≠ receiver.definition.path := by
  have before := effect.before
  intro here
  rw [← here] at before
  cases stuck with
  | unset seen => rw [seen] at before; cases before
  | nameless seen unfit => rw [before] at seen; cases seen
  | claimed seen often => rw [before] at seen; cases seen
  | unclosed seen => rw [seen] at before; cases before

theorem Settled.converted (settled : Settled state) (found : Unconverted state.tree node receiver)
    (same : defect = ⟨.missingToString, node, [receiver.name]⟩)
    (fits : Fix.missingToString state.tree node.span = .ok tree) : Settled (state.succeed defect tree) := by
  have effect := Fix.converted_of_ok found settled.tidy.shape fits
  have elsewhere := effect.elsewhere (Fix.bracketed_of_tidy found settled.tidy)
  subst same
  refine ⟨Fix.tidy_of_converted found settled.tidy fits, ?_, ?_, ?_⟩
  · intro site member
    rcases List.mem_cons.mp member with rfl | old
    · rw [site_missingToString found.receiver_eq]
      exact .converted effect.after
    · by_cases here : site.path = receiver.definition.path
      · exact (settled.fixed site old).converted_here effect here
      · exact (settled.fixed site old).mono (elsewhere _ here)
  · intro site given
    refine (settled.stuck site given).mono (elsewhere _ ((settled.stuck site given).not_converted effect)) ?_
    intro name many
    simp only [succeed]
    rw [effect.claims]
    exact many
  · intro site tried rule path other up proper reported
    have apart : path ≠ receiver.definition.path := by
      rintro rfl
      simp only [succeed, effect.after] at reported
      cases reported
    have unchanged : (state.tree.roleAt path).negated? = some other := by
      rw [← elsewhere path apart]
      exact reported
    rcases or_assoc.mp (tried.imp_left List.mem_cons.mp) with rfl | old
    · cases rule
    · exact settled.around site old rule path other up proper unchanged

end

private theorem error_iff (result : Except FixError Tree) :
    (∃ failure, result = .error failure) ↔ ¬ ∃ tree, result = .ok tree := by
  cases result <;> simp

private theorem stuck_negatedName {tree : Tree} {node : Node} {name : String} (found : Negated tree node name)
    (tidy : Tidy tree) :
    Stuck tree ⟨.negatedName, node.path, [name]⟩ ↔ ¬ ∃ fixed, Fix.negatedName tree node.span = .ok fixed := by
  have role := found.role_eq
  have declared : (tree.roleAt node.path).isDeclaration := by rw [role]; rfl
  rw [Fix.exists_negatedName_ok found tidy]
  constructor
  · rintro (here | ⟨_, unfit⟩ | ⟨_, often⟩) ⟨starts, literal, few⟩
    · rw [role, literal] at here
      cases here
    · rw [starts] at unfit
      cases unfit
    · omega
  · intro refused
    by_cases starts : Fix.startsName (Name.affirmed name)
    · cases literal : node.tree.literal?.isSome with
      | false => exact .unset (role.trans (by rw [literal]))
      | true =>
        refine .claimed declared ?_
        apply Nat.lt_of_not_le
        intro few
        exact refused ⟨starts, literal, few⟩
    · exact .nameless declared (by simpa using starts)

private theorem stuck_missingToString {tree : Tree} {node : Node} {receiver : Receiver}
    (found : Unconverted tree node receiver) (shape : tree.WellFormed) (arguments : List String) :
    Stuck tree ⟨.missingToString, receiver.definition.path, arguments⟩ ↔
      ¬ ∃ fixed, Fix.missingToString tree node.span = .ok fixed := by
  have role := found.role_eq
  have closed : (∃ fixed, Fix.missingToString tree node.span = .ok fixed) ↔ receiver.definition.tree.isClosed := by
    simp only [Fix.missingToString_eq_ok found shape, Fix.isClosed_iff]
    constructor
    · intro ⟨_, body, close, isBody, shut, _⟩
      exact ⟨body, close, isBody, shut⟩
    · intro ⟨body, close, isBody, shut⟩
      exact ⟨_, body, close, isBody, shut, rfl⟩
  rw [closed]
  constructor
  · intro stuck shut
    cases stuck with
    | unclosed here =>
      rw [role, shut] at here
      cases here
  · intro unshut
    exact .unclosed (role.trans (by rw [Bool.eq_false_iff.mpr unshut]))

/-- A report is refused exactly if its site is stuck. -/
theorem stuck_iff {tree : Tree} (reported : defect ∈ detect rules tree) (tidy : Tidy tree) :
    Stuck tree defect.site ↔ ∃ failure, defect.fixIn tree = .error failure := by
  rw [error_iff]
  rcases detect_cases reported with ⟨_, node, name, found, rfl⟩ | ⟨node, receiver, found, rfl⟩
  · rw [site_negatedName, fixIn_negatedName, stuck_negatedName found tidy]
  · rw [site_missingToString found.receiver_eq, fixIn_missingToString, stuck_missingToString found tidy.shape]

/-- A fixed site is not reported again. -/
theorem Settled.not_done (settled : Settled state) (reported : defect ∈ detect rules state.tree) :
    defect.site ∉ state.done := by
  intro member
  have fixed := settled.fixed _ member
  rcases detect_cases reported with ⟨_, node, name, found, rfl⟩ | ⟨node, receiver, found, rfl⟩
  · rw [site_negatedName] at fixed
    cases fixed with
    | renamed here less =>
      rw [found.role_eq] at here
      cases here
      exact Nat.lt_irrefl _ less
  · rw [site_missingToString found.receiver_eq] at fixed
    cases fixed with
    | converted here =>
      rw [found.role_eq] at here
      cases here

theorem Settled.giveUp (settled : Settled state) (candidate : state.candidate? rules keepAll = some defect)
    (why : defect.site ∈ state.done ∨ ∃ failure, defect.fixIn state.tree = .error failure) :
    Settled (state.giveUp defect) := by
  have reported := mem_detect_of_candidate? candidate
  have refused := why.resolve_left (settled.not_done reported)
  refine ⟨settled.tidy, settled.fixed, ?_, ?_⟩
  · intro site member
    rcases List.mem_cons.mp member with rfl | old
    · exact (stuck_iff reported settled.tidy).mpr refused
    · exact settled.stuck site old
  · intro site tried rule path other up proper outer
    rcases tried with done | member
    · exact List.mem_cons_of_mem _ (settled.around site (.inl done) rule path other up proper outer)
    rcases List.mem_cons.mp member with rfl | old
    · rcases detect_cases reported with ⟨_, node, name, found, same⟩ | ⟨node, receiver, found, same⟩
      · subst same
        exact List.mem_cons_of_mem _ (givenUp_of_around candidate rfl up proper outer)
      · subst same
        cases rule
    · exact List.mem_cons_of_mem _ (settled.around site (.inr old) rule path other up proper outer)

theorem Settled.attempt (settled : Settled state) (candidate : state.candidate? rules keepAll = some defect) :
    Settled (state.attempt defect) := by
  cases step_of_candidate? candidate with
  | renamed node name fixed found same fits next =>
    rw [next]
    exact settled.renamed candidate found same fits
  | converted node receiver fixed found same fits next =>
    rw [next]
    exact settled.converted found same fits
  | givenUp why next =>
    rw [next]
    exact settled.giveUp candidate why

theorem settled_start {tree : Tree} (tidy : Tidy tree) : Settled (start tree) := by
  refine ⟨tidy, ?_, ?_, ?_⟩
  · intro site member
    cases member
  · intro site member
    cases member
  · rintro site (member | member) <;> cases member

/-- When no candidate is left, every report is about a stuck site. -/
theorem Settled.all_refused (settled : Settled state) (ended : state.candidate? rules keepAll = none)
    (reported : defect ∈ detect rules state.tree) : ∃ failure, defect.fixIn state.tree = .error failure := by
  have passed := List.find?_eq_none.mp ended defect reported
  refine (stuck_iff reported settled.tidy).mp (settled.stuck _ ?_)
  simpa [hasFix_id, keepAll] using passed

/-- Where every report is refused, rounds change nothing. -/
theorem rounds_of_refused {tree : Tree}
    (refused : ∀ defect ∈ detect rules tree, ∃ failure, defect.fixIn tree = .error failure) (count : Nat) :
    ((start tree).rounds rules keepAll count).tree = tree ∧ ((start tree).rounds rules keepAll count).applied = [] := by
  have idle : ((start tree).rounds rules keepAll count).tree = tree ∧
      ((start tree).rounds rules keepAll count).applied = [] ∧ ((start tree).rounds rules keepAll count).done = [] := by
    refine rounds_induction (motive := fun state => state.tree = tree ∧ state.applied = [] ∧ state.done = []) ?_
      ⟨rfl, rfl, rfl⟩ count
    intro state defect ⟨sameTree, unfixed, fresh⟩ candidate
    have reported := mem_detect_of_candidate? candidate
    rw [sameTree] at reported
    obtain ⟨failure, failed⟩ := refused defect reported
    simp [FixState.attempt, sameTree, unfixed, fresh, failed]
  exact ⟨idle.1, idle.2.1⟩

end FixState

/-- Once fixing has come to an end, what is still reported cannot be fixed, and fixing again changes
nothing. -/
theorem fixAll_stable (rules : List Rule) {tree : Tree} (shape : tree.WellFormed) (grammatical : tree.Grammatical)
    (ended : ((FixState.start tree).rounds rules (fun _ _ => true) maxRounds).candidate? rules (fun _ _ => true) = none) :
    (∀ defect ∈ (fixAll rules tree).remaining,
      ∃ failure, defect.fixIn (fixAll rules tree).tree = .error failure) ∧
    (fixAll rules (fixAll rules tree).tree).applied = [] ∧
    (fixAll rules (fixAll rules tree).tree).tree = (fixAll rules tree).tree := by
  have settled : FixState.Settled ((FixState.start tree).rounds rules FixState.keepAll maxRounds) :=
    FixState.rounds_induction (fun _ _ settled candidate => settled.attempt candidate)
      (FixState.settled_start (Tree.tidy_of_grammatical shape grammatical)) maxRounds
  have refused : ∀ defect ∈ detect rules (fixAll rules tree).tree,
      ∃ failure, defect.fixIn (fixAll rules tree).tree = .error failure :=
    fun _ reported => settled.all_refused ended reported
  have idle := FixState.rounds_of_refused refused maxRounds
  refine ⟨?_, idle.2, idle.1⟩
  intro defect member
  exact refused defect (List.mem_filter.mp member).1

/-- Two negated names in front of a class. The first loses its prefix; the second has no value that
could be negated. -/
def halfFixable : Tree :=
  .node .compilationUnit
    [.node .variableDeclaration
      [.token .predefinedType "" "bool",
        .node .variableDeclarator
          [.token .identifier " " "notReady", .token .punctuation " " "=", .token .literalToken " " "true"]],
      .token .punctuation "" ";",
      .node .variableDeclaration
        [.token .predefinedType " " "bool", .node .variableDeclarator [.token .identifier " " "notDone"]],
      .token .punctuation "" ";",
      .node .classDeclaration
        [.token .keyword " " "class", .token .identifier " " "Box",
          .node .declarationList [.token .punctuation " " "\x7b", .token .punctuation " " "\x7d"]]]

theorem fixAll_stable_halfFixable :
    halfFixable.WellFormed ∧ halfFixable.Grammatical ∧ (fixAll Rule.all halfFixable).applied.length = 1 ∧
      (fixAll Rule.all halfFixable).remaining.length = 1 ∧
      (∀ defect ∈ (fixAll Rule.all halfFixable).remaining,
        ∃ failure, defect.fixIn (fixAll Rule.all halfFixable).tree = .error failure) ∧
      (fixAll Rule.all (fixAll Rule.all halfFixable).tree).applied = [] ∧
      (fixAll Rule.all (fixAll Rule.all halfFixable).tree).tree = (fixAll Rule.all halfFixable).tree := by
  have shape : halfFixable.WellFormed := by
    simp [halfFixable, Tree.WellFormed, Tree.AllWellFormed, Kind.isToken]
  have grammatical : halfFixable.Grammatical := by
    constructor <;> decide +kernel
  have ended : ((FixState.start halfFixable).rounds Rule.all (fun _ _ => true) maxRounds).candidate? Rule.all
      (fun _ _ => true) = none := by
    decide +kernel
  exact ⟨shape, grammatical, by decide +kernel, by decide +kernel, fixAll_stable Rule.all shape grammatical ended⟩

end TreeLint
