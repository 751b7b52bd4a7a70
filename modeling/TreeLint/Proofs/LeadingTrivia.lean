import TreeLint.Proofs.Bare
import TreeLint.Proofs.RenamedText

/-! Giving a tree other trivia changes its first token and nothing else. The first token is looked for in two ways, by
asking each subtree for its own and by going down into the first subtree that has one. Both end at the head of the list
of tokens, through whatever subtrees without tokens stand in front of it. So the trivia in front of a tree can be read
and written like a field. -/

namespace TreeLint.Tree

theorem firstTokenOf?_eq_head {trees : List Tree} (each : ∀ tree ∈ trees, tree.firstToken? = tree.tokens.head?) :
    firstTokenOf? trees = (tokensOf trees).head? := by
  induction trees with
  | nil => rfl
  | cons tree rest ih =>
    obtain ⟨head, tail⟩ := List.forall_mem_cons.mp each
    rw [firstTokenOf?, tokensOf, List.head?_append, head, ih tail]

theorem firstToken?_eq_head (tree : Tree) : tree.firstToken? = tree.tokens.head? := by
  induction tree with
  | token kind leading text =>
    rw [firstToken?, tokens]
    split <;> rfl
  | node kind children ih =>
    rw [firstToken?, tokens]
    split
    · rfl
    · exact firstTokenOf?_eq_head ih

theorem firstToken?_eq_none_iff {tree : Tree} : tree.firstToken? = none ↔ tree.tokens = [] := by
  rw [firstToken?_eq_head, List.head?_eq_none_iff]

def fronted (trivia : String) (leaf : Tree) : Tree :=
  .token leaf.kind trivia leaf.spelling

theorem tokensOf_withLeadingFirst {trees : List Tree} {trivia : String}
    (each : ∀ tree ∈ trees, (tree.withLeading trivia).tokens = tree.tokens.modifyHead (fronted trivia)) :
    tokensOf (withLeadingFirst trivia trees) = (tokensOf trees).modifyHead (fronted trivia) := by
  induction trees with
  | nil => rfl
  | cons tree rest ih =>
    obtain ⟨head, tail⟩ := List.forall_mem_cons.mp each
    rw [withLeadingFirst, firstToken?_eq_head, tokensOf]
    cases present : tree.tokens with
    | nil =>
      simp only [List.head?_nil, Option.isSome_none, Bool.false_eq_true, if_false, tokensOf, present, List.nil_append]
      exact ih tail
    | cons first others =>
      rw [present] at head
      simp only [List.head?_cons, Option.isSome_some, if_true, tokensOf, head, List.modifyHead_cons, List.cons_append]

section
variable {tree : Tree} (shape : tree.WellFormed)

include shape

theorem tokens_withLeading (trivia : String) :
    (tree.withLeading trivia).tokens = tree.tokens.modifyHead (fronted trivia) := by
  induction tree with
  | token kind leading text =>
    have isToken : kind.isToken = true := shape
    simp [withLeading, tokens, isToken, fronted, spelling]
  | node kind children ih =>
    obtain ⟨inner, below⟩ := (wellFormed_node kind children).mp shape
    rw [withLeading, inner, tokens_node inner]
    exact (tokens_node inner _).trans (tokensOf_withLeadingFirst fun child member => ih child member (below child member))

theorem isSome_firstToken?_withLeading (trivia : String) :
    (tree.withLeading trivia).firstToken?.isSome = tree.firstToken?.isSome := by
  rw [firstToken?_eq_head, firstToken?_eq_head, tokens_withLeading shape]
  cases tree.tokens <;> rfl

theorem leading_withLeading (present : tree.tokens ≠ []) (trivia : String) :
    (tree.withLeading trivia).leading = trivia := by
  obtain ⟨first, others, split⟩ := List.exists_cons_of_ne_nil present
  rw [leading, firstToken?_eq_head, tokens_withLeading shape, split]
  rfl

end

theorem withLeadingFirst_of_bare {trees : List Tree} (bare : ∀ tree ∈ trees, tree.firstToken? = none)
    (trivia : String) : withLeadingFirst trivia trees = trees := by
  induction trees with
  | nil => rfl
  | cons tree rest ih =>
    obtain ⟨head, tail⟩ := List.forall_mem_cons.mp bare
    rw [withLeadingFirst, head, ih tail]
    rfl

theorem withLeading_of_bare {tree : Tree} (bare : tree.firstToken? = none) (trivia : String) :
    tree.withLeading trivia = tree := by
  cases tree with
  | token kind leading text =>
    rw [firstToken?] at bare
    rw [withLeading]
    split at bare
    next => cases bare
    next inner => rw [if_neg inner]
  | node kind children =>
    rw [firstToken?] at bare
    rw [withLeading]
    split at bare
    next => cases bare
    next inner => rw [if_neg inner, withLeadingFirst_of_bare (firstTokenOf?_eq_none.mp bare)]

theorem withLeading_leading {tree : Tree} (shape : tree.WellFormed) : tree.withLeading tree.leading = tree := by
  cases start : tree.firstToken? with
  | none => exact withLeading_of_bare start _
  | some first =>
    rw [leading_of_firstToken? start]
    exact withLeading_own shape start

theorem withLeadingFirst_again {trees : List Tree} {trivia other : String} (shape : ∀ tree ∈ trees, tree.WellFormed)
    (each : ∀ tree ∈ trees, (tree.withLeading trivia).withLeading other = tree.withLeading other) :
    withLeadingFirst other (withLeadingFirst trivia trees) = withLeadingFirst other trees := by
  induction trees with
  | nil => rfl
  | cons tree rest ih =>
    obtain ⟨head, tail⟩ := List.forall_mem_cons.mp each
    obtain ⟨sound, below⟩ := List.forall_mem_cons.mp shape
    rw [withLeadingFirst, withLeadingFirst.eq_2 other tree]
    cases present : tree.firstToken?.isSome with
    | true => simp only [if_true, withLeadingFirst, isSome_firstToken?_withLeading sound, present, head]
    | false => simp only [Bool.false_eq_true, if_false, withLeadingFirst, present, ih below tail]

theorem withLeading_withLeading {tree : Tree} (shape : tree.WellFormed) (trivia other : String) :
    (tree.withLeading trivia).withLeading other = tree.withLeading other := by
  induction tree with
  | token kind leading text =>
    have isToken : kind.isToken = true := shape
    simp [withLeading, isToken]
  | node kind children ih =>
    obtain ⟨inner, below⟩ := (wellFormed_node kind children).mp shape
    simp only [withLeading, inner, Bool.false_eq_true, if_false]
    rw [withLeadingFirst_again below fun child member => ih child member (below child member)]

/-- The result is the tree with `trivia` in front of its first token, and otherwise the same. -/
structure Refronted (tree : Tree) (trivia : String) (result : Tree) : Prop where
  leading_eq : result.leading = trivia
  /-- Kinds, children and the texts of tokens stay. -/
  bare_eq : result.bare = tree.bare
  /-- The other tokens keep their trivia. -/
  tokens_eq : ∃ first others, tree.tokens = first :: others ∧
    result.tokens = .token first.kind trivia first.spelling :: others
  text_eq : ∃ rest, tree.text = tree.leading ++ rest ∧ result.text = trivia ++ rest

/-- Other trivia in front of a tree with tokens shows in its first token only, and what was there before is forgotten.
A tree without tokens has no place for it. -/
theorem withLeading_refronted {tree : Tree} (shape : tree.WellFormed) (trivia other : String) :
    (tree.tokens ≠ [] → tree.Refronted trivia (tree.withLeading trivia)) ∧
    (tree.withLeading trivia).withLeading other = tree.withLeading other ∧
    tree.withLeading tree.leading = tree ∧
    (tree.tokens = [] → tree.withLeading trivia = tree) := by
  refine ⟨?_, withLeading_withLeading shape trivia other, withLeading_leading shape, ?_⟩
  · intro present
    obtain ⟨first, others, split⟩ := List.exists_cons_of_ne_nil present
    refine ⟨leading_withLeading shape present trivia, bare_withLeading shape trivia, ⟨first, others, split, ?_⟩, ?_⟩
    · rw [tokens_withLeading shape, split]
      rfl
    · have some : tree.firstToken?.isSome := by
        rw [firstToken?_eq_head, split]
        rfl
      exact ⟨tree.trimmed, text_eq_leading_append shape, text_withLeading shape some trivia⟩
  · intro none
    exact withLeading_of_bare (firstToken?_eq_none_iff.mpr none) trivia

def hidden : Tree :=
  .node .block
    [.node .unknown [], .node .ifStatement
      [.node .unknown [.node .unknown []], .token .keyword "/**/ " "if", .token .punctuation " " ";"],
      .token .punctuation " " "\x7d"]

theorem withLeading_refronted_hidden :
    hidden.WellFormed ∧ hidden.tokens ≠ [] ∧ hidden.Refronted "\n" (hidden.withLeading "\n") ∧
      (hidden.withLeading "\n").text = "\nif ; \x7d" ∧
      (hidden.withLeading "\n").withLeading "é" = hidden.withLeading "é" ∧
      hidden.withLeading "/**/ " = hidden ∧
      (Tree.node .block [.node .unknown []]).withLeading "\n" = .node .block [.node .unknown []] := by
  have shape : hidden.WellFormed := by simp [hidden, WellFormed, AllWellFormed, Kind.isToken]
  have bare : (Tree.node .block [.node .unknown []]).WellFormed := by simp [WellFormed, AllWellFormed, Kind.isToken]
  have present : hidden.tokens ≠ [] := by simp [hidden, tokens, tokensOf, Kind.isToken]
  obtain ⟨changed, again, own, _⟩ := withLeading_refronted shape "\n" "é"
  exact ⟨shape, present, changed present, by decide +kernel, again, own, (withLeading_refronted bare "\n" "").2.2.2 rfl⟩

end TreeLint.Tree
