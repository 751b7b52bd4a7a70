import Mathlib.Logic.Relation
import TreeLint.Proofs.Lowered

/-! Clauses that stand for nothing but their children. Whether an initial value is wrapped in such a clause depends on
the version of the grammar. Putting the children of a clause in its place changes no lowered tree, wherever the clause
stands, except among the entries of a list of base types. Carried on to the end, this leads from each concrete tree to
the one of a grammar without the clause, and both lower to the same tree. -/

namespace TreeLint.Concrete
open TreeLint.Tree TreeLint.Grammar

/-- Somewhere in the tree a clause with children has been replaced by them. Neither the root nor the entries of a list
of base types are replaced. -/
inductive Unwraps : Concrete → Concrete → Prop where
  | here {symbol : String} {named : Bool} {start stop : Nat} {front back : List Concrete} {wrapper : Concrete} :
      wrapper.symbol = "equals_value_clause" → wrapper.children ≠ [] → symbol ≠ "base_list" →
      Unwraps (.node symbol named start stop (front ++ wrapper :: back))
        (.node symbol named start stop (front ++ wrapper.children ++ back))
  | inside {symbol : String} {named : Bool} {start stop : Nat} {front back : List Concrete} {child plain : Concrete} :
      Unwraps child plain →
      Unwraps (.node symbol named start stop (front ++ child :: back))
        (.node symbol named start stop (front ++ plain :: back))

theorem lowerAll_append (source : String) (inBaseList : Bool) (first second : List Concrete) (cursor : Nat) :
    lowerAll source inBaseList (first ++ second) cursor =
      ((lowerAll source inBaseList first cursor).1 ++
          (lowerAll source inBaseList second (lowerAll source inBaseList first cursor).2).1,
        (lowerAll source inBaseList second (lowerAll source inBaseList first cursor).2).2) := by
  induction first generalizing cursor with
  | nil => rfl
  | cons child rest ih => simp only [List.cons_append, lowerAll, ih, List.append_assoc]

theorem lower_inner {children : List Concrete} (inner : children ≠ []) (source symbol : String) (named : Bool)
    (start stop cursor : Nat) :
    lower source (.node symbol named start stop children) cursor =
      (if isTransparent symbol then (lowerAll source (isBaseList symbol) children cursor).1
        else [.node (constructKind symbol) (lowerAll source (isBaseList symbol) children cursor).1],
        (lowerAll source (isBaseList symbol) children cursor).2) := by
  obtain ⟨first, rest, rfl⟩ := List.exists_cons_of_ne_nil inner
  rw [lower]
  simp only
  split <;> rfl

/-- Trees in a row may be exchanged for others that lower to the same, from every cursor. -/
theorem lowerAll_congr {source : String} {inBaseList : Bool} {old new : List Concrete}
    (same : ∀ cursor, lowerAll source inBaseList new cursor = lowerAll source inBaseList old cursor)
    (front back : List Concrete) (cursor : Nat) :
    lowerAll source inBaseList (front ++ new ++ back) cursor =
      lowerAll source inBaseList (front ++ old ++ back) cursor := by
  simp only [lowerAll_append, same]

theorem lower_congr {source symbol : String} {old new : List Concrete} (one : old ≠ []) (two : new ≠ [])
    (same : ∀ cursor, lowerAll source (isBaseList symbol) new cursor = lowerAll source (isBaseList symbol) old cursor)
    (named : Bool) (start stop cursor : Nat) :
    lower source (.node symbol named start stop new) cursor = lower source (.node symbol named start stop old) cursor := by
  rw [lower_inner one, lower_inner two, same]

theorem isBaseList_iff {symbol : String} : isBaseList symbol = true ↔ symbol = "base_list" := by
  have table : ∀ entry ∈ constructs, entry.2 = .baseList → entry.1 = "base_list" := by decide
  constructor
  · intro list
    have kind : constructKind symbol = .baseList := of_decide_eq_true list
    cases found : constructs.lookup symbol with
    | none =>
      rw [constructKind, found] at kind
      cases kind
    | some held =>
      rw [constructKind, found] at kind
      exact table (symbol, held) (mem_of_lookup found) kind
  · intro spelled
    rw [spelled]
    decide

theorem isBaseList_eq_false {symbol : String} : isBaseList symbol = false ↔ symbol ≠ "base_list" := by
  rw [Bool.eq_false_iff, ne_eq, isBaseList_iff]

theorem Unwraps.symbol_eq {concrete plain : Concrete} (step : Unwraps concrete plain) : plain.symbol = concrete.symbol := by
  cases step <;> rfl

theorem Unwraps.named_eq {concrete plain : Concrete} (step : Unwraps concrete plain) : plain.named = concrete.named := by
  cases step <;> rfl

/-- Outside lists of base types a clause lowers to what its children lower to. -/
theorem lowerAll_wrapper {wrapper : Concrete} (spelled : wrapper.symbol = "equals_value_clause")
    (inner : wrapper.children ≠ []) (source : String) (cursor : Nat) :
    lowerAll source false wrapper.children cursor = lowerAll source false [wrapper] cursor := by
  obtain ⟨symbol, named, start, stop, children⟩ := wrapper
  have transparent : isTransparent symbol = true := decide_eq_true spelled
  have spliced := lower_inner inner source symbol named start stop cursor
  rw [if_pos transparent, isBaseList_of_transparent transparent] at spliced
  have whole : lower source (.node symbol named start stop children) cursor = lowerAll source false children cursor :=
    spliced
  simp [lowerAll, wrapBase, whole, Concrete.children]

theorem Unwraps.lower_eq {concrete plain : Concrete} (step : Unwraps concrete plain) (source : String) (cursor : Nat) :
    lower source plain cursor = lower source concrete cursor := by
  induction step generalizing cursor with
  | @here symbol named start stop front back wrapper spelled inner outside =>
    apply lower_congr (by simp) (by simp [inner])
    intro cursor
    rw [isBaseList_eq_false.mpr outside, List.append_cons front wrapper]
    exact lowerAll_congr (lowerAll_wrapper spelled inner source) front back cursor
  | @inside symbol named start stop front back child plain step ih =>
    apply lower_congr (by simp) (by simp)
    intro cursor
    rw [List.append_cons front plain, List.append_cons front child]
    refine lowerAll_congr ?_ front back cursor
    intro cursor
    simp only [lowerAll, wrapBase, step.symbol_eq, step.named_eq, ih]

theorem Unwraps.toTree_eq {concrete plain : Concrete} (step : Unwraps concrete plain) (source : String) :
    toTree source plain = toTree source concrete := by
  simp only [toTree, step.lower_eq]

def isWrapper (concrete : Concrete) : Bool :=
  isTransparent concrete.symbol && !concrete.isLeaf

theorem isWrapper_iff {concrete : Concrete} :
    concrete.isWrapper = true ↔ concrete.symbol = "equals_value_clause" ∧ concrete.children ≠ [] := by
  simp [isWrapper, isTransparent, isLeaf]

mutual

/-- The tree of a grammar without the clause, entries of lists of base types apart. -/
def unwrapped : Concrete → Concrete
  | .node symbol named start stop children =>
    .node symbol named start stop (unwrappedAll (isBaseList symbol) children)

def unwrappedAll (inBaseList : Bool) : List Concrete → List Concrete
  | [] => []
  | child :: rest =>
    if !inBaseList && child.isWrapper then child.unwrapped.children ++ unwrappedAll inBaseList rest
    else child.unwrapped :: unwrappedAll inBaseList rest

end

theorem symbol_unwrapped (concrete : Concrete) : concrete.unwrapped.symbol = concrete.symbol := by
  cases concrete
  rfl

mutual

theorem unwrapped_inner {concrete : Concrete} (inner : concrete.children ≠ []) : concrete.unwrapped.children ≠ [] := by
  match concrete with
  | .node symbol named start stop children => exact unwrappedAll_ne_nil (isBaseList symbol) inner

theorem unwrappedAll_ne_nil {trees : List Concrete} (inBaseList : Bool) (some : trees ≠ []) :
    unwrappedAll inBaseList trees ≠ [] := by
  match trees with
  | [] => exact absurd rfl some
  | child :: rest =>
    rw [unwrappedAll]
    split
    next replaced =>
      obtain ⟨_, wrapper⟩ := Bool.and_eq_true_iff.mp replaced
      exact List.append_ne_nil_of_left_ne_nil (unwrapped_inner (isWrapper_iff.mp wrapper).2) _
    next => exact List.cons_ne_nil _ _

end

theorem isWrapper_unwrapped (concrete : Concrete) : concrete.unwrapped.isWrapper = concrete.isWrapper := by
  obtain ⟨symbol, named, start, stop, children⟩ := concrete
  cases children with
  | nil => rfl
  | cons first rest =>
    have inner : (unwrapped (.node symbol named start stop (first :: rest))).children ≠ [] :=
      unwrapped_inner (List.cons_ne_nil first rest)
    rw [Bool.eq_iff_iff, isWrapper_iff, isWrapper_iff, symbol_unwrapped]
    exact and_congr_right fun _ => iff_of_true inner (List.cons_ne_nil _ _)

theorem unwraps_inside {child plain : Concrete} (steps : Relation.ReflTransGen Unwraps child plain) (symbol : String)
    (named : Bool) (start stop : Nat) (front back : List Concrete) :
    Relation.ReflTransGen Unwraps (.node symbol named start stop (front ++ child :: back))
      (.node symbol named start stop (front ++ plain :: back)) := by
  induction steps with
  | refl => exact .refl
  | tail _ step ih => exact ih.tail (.inside step)

mutual

theorem unwraps_unwrapped (concrete : Concrete) : Relation.ReflTransGen Unwraps concrete concrete.unwrapped := by
  match concrete with
  | .node symbol named start stop children => exact unwraps_unwrappedAll symbol named start stop [] children

/-- The children in front have been unwrapped, those behind are still to come. -/
theorem unwraps_unwrappedAll (symbol : String) (named : Bool) (start stop : Nat) (front trees : List Concrete) :
    Relation.ReflTransGen Unwraps (.node symbol named start stop (front ++ trees))
      (.node symbol named start stop (front ++ unwrappedAll (isBaseList symbol) trees)) := by
  match trees with
  | [] => exact .refl
  | child :: rest =>
    have first := unwraps_inside (unwraps_unwrapped child) symbol named start stop front rest
    rw [unwrappedAll]
    split
    next replaced =>
      obtain ⟨outside, wrapper⟩ := Bool.and_eq_true_iff.mp replaced
      obtain ⟨spelled, inner⟩ := isWrapper_iff.mp wrapper
      have entry : symbol ≠ "base_list" := isBaseList_eq_false.mp (by simpa using outside)
      have step : Unwraps (.node symbol named start stop (front ++ child.unwrapped :: rest))
          (.node symbol named start stop (front ++ child.unwrapped.children ++ rest)) :=
        .here ((symbol_unwrapped child).trans spelled) (unwrapped_inner inner) entry
      have onward := unwraps_unwrappedAll symbol named start stop (front ++ child.unwrapped.children) rest
      rw [List.append_assoc front _ (unwrappedAll _ rest)] at onward
      exact (first.tail step).trans onward
    next =>
      have onward := unwraps_unwrappedAll symbol named start stop (front ++ [child.unwrapped]) rest
      rw [← List.append_cons, ← List.append_cons] at onward
      exact first.trans onward

end

theorem Unwraps.exists_child {symbol : String} {named : Bool} {start stop : Nat} {children : List Concrete}
    {plain : Concrete} (step : Unwraps (.node symbol named start stop children) plain) :
    ∃ child ∈ children, (isBaseList symbol = false ∧ child.isWrapper = true) ∨ ∃ changed, Unwraps child changed := by
  generalize whole : node symbol named start stop children = tree at step
  cases step with
  | @here symbol named start stop front back wrapper spelled inner outside =>
    cases whole
    exact ⟨wrapper, by simp, .inl ⟨isBaseList_eq_false.mpr outside, isWrapper_iff.mpr ⟨spelled, inner⟩⟩⟩
  | @inside symbol named start stop front back child plain step =>
    cases whole
    exact ⟨child, by simp, .inr ⟨plain, step⟩⟩

mutual

theorem not_unwraps_unwrapped (concrete plain : Concrete) : ¬ Unwraps concrete.unwrapped plain := by
  match concrete with
  | .node symbol named start stop children =>
    intro step
    obtain ⟨child, member, found⟩ := step.exists_child
    obtain ⟨replaced, settled⟩ := settled_unwrappedAll (isBaseList symbol) children child member
    rcases found with ⟨entry, wrapper⟩ | ⟨changed, again⟩
    · rw [replaced entry] at wrapper
      cases wrapper
    · exact settled changed again

theorem settled_unwrappedAll (inBaseList : Bool) (trees : List Concrete) :
    ∀ piece ∈ unwrappedAll inBaseList trees,
      (inBaseList = false → piece.isWrapper = false) ∧ ∀ plain, ¬ Unwraps piece plain := by
  match trees with
  | [] => exact fun piece member => absurd member List.not_mem_nil
  | .node symbol named start stop children :: rest =>
    have later := settled_unwrappedAll inBaseList rest
    rw [unwrappedAll]
    split
    next replaced =>
      obtain ⟨_, wrapper⟩ := Bool.and_eq_true_iff.mp replaced
      obtain ⟨transparent, _⟩ := Bool.and_eq_true_iff.mp wrapper
      -- What takes the place of a clause has been unwrapped as children of a clause, which is no list of base types.
      have inner := settled_unwrappedAll (isBaseList symbol) children
      intro piece member
      rcases List.mem_append.mp member with among | behind
      · obtain ⟨plainPiece, settled⟩ := inner piece among
        exact ⟨fun _ => plainPiece (isBaseList_of_transparent transparent), settled⟩
      · exact later piece behind
    next kept =>
      have settled := not_unwraps_unwrapped (.node symbol named start stop children)
      refine List.forall_mem_cons.mpr ⟨⟨?_, settled⟩, later⟩
      intro outside
      rw [outside] at kept
      rw [isWrapper_unwrapped]
      simpa using kept

end

theorem toTree_of_unwraps {concrete plain : Concrete} (steps : Relation.ReflTransGen Unwraps concrete plain)
    (source : String) : toTree source plain = toTree source concrete := by
  induction steps with
  | refl => rfl
  | tail _ step ih => exact (step.toTree_eq source).trans ih

/-- A clause replaced by its children does not show in the lowered tree, wherever it has stood. When none is left to
replace, the concrete tree is that of a grammar without the clause, and still lowers to the same tree. -/
theorem toTree_unwraps (source : String) (concrete : Concrete) :
    (∀ plain, Unwraps concrete plain → toTree source plain = toTree source concrete) ∧
    Relation.ReflTransGen Unwraps concrete concrete.unwrapped ∧
    (∀ plain, ¬ Unwraps concrete.unwrapped plain) ∧
    toTree source concrete.unwrapped = toTree source concrete := by
  have steps := unwraps_unwrapped concrete
  refine ⟨?_, steps, not_unwraps_unwrapped concrete, toTree_of_unwraps steps source⟩
  intro plain step
  exact step.toTree_eq source

def valued : Concrete :=
  .node "variable_declarator" true 0 4
    [.node "identifier" true 0 1 [], .node "equals_value_clause" true 1 4
      [.node "=" false 1 2 [], .node "equals_value_clause" true 3 4 [.node "integer_literal" true 3 4 []]]]

theorem toTree_unwraps_valued :
    ∃ plain, Unwraps valued plain ∧ plain.children.length = 3 ∧ toTree "a= 1" plain = toTree "a= 1" valued ∧
      toTree "a= 1" valued.unwrapped = toTree "a= 1" valued ∧
      (toTree "a= 1" valued).children.map (fun child => child.children.map Tree.kind) =
        [[.identifier, .punctuation, .literalToken], []] := by
  obtain ⟨each, _, _, all⟩ := toTree_unwraps "a= 1" valued
  have step : Unwraps valued _ := @Unwraps.here _ _ _ _ [_] [] _ rfl (List.cons_ne_nil _ _) (by decide)
  exact ⟨_, step, rfl, each _ step, all, by decide +kernel⟩

-- Among base types a clause shows: it is one entry, while its children are one each.
example :
    let entries : List Concrete := [.node "identifier" true 0 1 [], .node "identifier" true 1 2 []]
    let references (children : List Concrete) : List Nat :=
      (toTree "AB" (.node "base_list" true 0 2 children)).children.map fun child => child.children.length
    references [.node "equals_value_clause" true 0 2 entries] = [1, 0] ∧ references entries = [2, 0] := by
  decide +kernel

end TreeLint.Concrete
