import TreeLint.Fix.Batch
import TreeLint.Proofs.Conversion
import TreeLint.Proofs.Renaming

/-! What one round of fixing can do: rename a declaration, add a method to a class, or give a site up.
Whatever each of these preserves holds after any number of rounds. -/

namespace TreeLint

theorem Rule.ofId?_id (rule : Rule) : Rule.ofId? rule.id = some rule := by
  cases rule <;> decide

theorem hasFix_id (rule : Rule) : hasFix rule.id = true := by
  rw [hasFix, Rule.ofId?_id]
  rfl

namespace FixState

variable {rules : List Rule} {keep : Tree → Defect → Bool} {state : FixState} {defect : Defect}

theorem mem_detect_of_candidate? (candidate : state.candidate? rules keep = some defect) :
    defect ∈ detect rules state.tree :=
  List.mem_of_find?_eq_some candidate

theorem not_givenUp_of_candidate? (candidate : state.candidate? rules keep = some defect) :
    defect.site ∉ state.givenUp ∧ keep state.tree defect := by
  have pending := List.find?_some candidate
  simp only [Bool.and_eq_true, Bool.not_eq_true', List.contains_eq_mem, decide_eq_false_iff_not] at pending
  exact ⟨pending.2, pending.1.2⟩

/-- What is preserved by each round is preserved by all of them. -/
theorem rounds_induction {motive : FixState → Prop}
    (step : ∀ state defect, motive state → state.candidate? rules keep = some defect → motive (state.attempt defect))
    (holds : motive state) (count : Nat) : motive (state.rounds rules keep count) := by
  induction count generalizing state with
  | zero => exact holds
  | succ count ih =>
    rw [rounds, round?]
    cases candidate : state.candidate? rules keep with
    | none => exact holds
    | some defect => exact ih (step state defect holds candidate)

def giveUp (state : FixState) (defect : Defect) : FixState :=
  { state with givenUp := defect.site :: state.givenUp }

def succeed (state : FixState) (defect : Defect) (fixed : Tree) : FixState :=
  ⟨fixed, state.applied ++ [⟨defect.rule.id, defect.arguments⟩], defect.site :: state.done, state.givenUp⟩

/-- Everything a round can do. -/
inductive Step (state : FixState) (defect : Defect) : Prop where
  | renamed (node : Node) (name : String) (fixed : Tree) (found : Negated state.tree node name)
      (same : defect = ⟨.negatedName, node, [name]⟩) (fits : Fix.negatedName state.tree node.span = .ok fixed)
      (next : state.attempt defect = state.succeed defect fixed)
  | converted (node : Node) (receiver : Receiver) (fixed : Tree) (found : Unconverted state.tree node receiver)
      (same : defect = ⟨.missingToString, node, [receiver.name]⟩)
      (fits : Fix.missingToString state.tree node.span = .ok fixed)
      (next : state.attempt defect = state.succeed defect fixed)
  | givenUp (why : defect.site ∈ state.done ∨ ∃ failure, defect.fixIn state.tree = .error failure)
      (next : state.attempt defect = state.giveUp defect)

theorem fixIn_negatedName (node : Node) (arguments : List String) (tree : Tree) :
    Defect.fixIn ⟨.negatedName, node, arguments⟩ tree = Fix.negatedName tree node.span := by
  rw [Defect.fixIn, applyFix, Rule.ofId?_id]
  rfl

theorem fixIn_missingToString (node : Node) (arguments : List String) (tree : Tree) :
    Defect.fixIn ⟨.missingToString, node, arguments⟩ tree = Fix.missingToString tree node.span := by
  rw [Defect.fixIn, applyFix, Rule.ofId?_id]
  rfl

theorem step_of_candidate? (candidate : state.candidate? rules keep = some defect) : Step state defect := by
  by_cases again : defect.site ∈ state.done
  · exact .givenUp (.inl again) (by simp [attempt, again, giveUp])
  cases result : defect.fixIn state.tree with
  | error failure => exact .givenUp (.inr ⟨failure, result⟩) (by simp [attempt, again, result, giveUp])
  | ok fixed =>
    have next : state.attempt defect = state.succeed defect fixed := by
      simp [attempt, again, result, succeed]
    rcases detect_cases (mem_detect_of_candidate? candidate) with
      ⟨_, node, name, found, same⟩ | ⟨node, receiver, found, same⟩
    · refine .renamed node name fixed found same ?_ next
      rwa [same, fixIn_negatedName] at result
    · refine .converted node receiver fixed found same ?_ next
      rwa [same, fixIn_missingToString] at result

theorem wellFormed_attempt (shape : state.tree.WellFormed) (candidate : state.candidate? rules keep = some defect) :
    (state.attempt defect).tree.WellFormed := by
  cases step_of_candidate? candidate with
  | renamed node name fixed found same fits next =>
    rw [next]
    exact (Fix.renamed_of_ok found shape fits).shape
  | converted node receiver fixed found same fits next =>
    rw [next]
    exact (Fix.converted_of_ok found shape fits).shape
  | givenUp why next =>
    rw [next]
    exact shape

end FixState

/-- A fixed report on a concrete file, read off an evaluation. -/
theorem exists_fixed {rules : List Rule} {tree : Tree} {index : Nat} {rule : Rule}
    (computed : ((detect rules tree)[index]?.map fun defect =>
      (defect.rule, (defect.fixIn tree).toOption.isSome)) = some (rule, true)) :
    ∃ defect fixed, (detect rules tree)[index]? = some defect ∧ defect.rule = rule ∧ defect.fixIn tree = .ok fixed := by
  obtain ⟨defect, known, result⟩ := Option.map_eq_some_iff.mp computed
  obtain ⟨same, fits⟩ := Prod.mk.inj result
  cases done : defect.fixIn tree with
  | error failure => rw [done] at fits; cases fits
  | ok fixed => exact ⟨defect, fixed, known, same, done⟩

end TreeLint
