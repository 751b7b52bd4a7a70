import TreeLint.Proofs.Inheritance

/-! What the lookups by offset and by span come to, said of all nodes of a tree at once. An offset
inside the text belongs to one token and no other. A kind and a span lead to a node exactly if some
node has both and the span is not empty, and then to the innermost of those nodes. -/

namespace TreeLint.Tree

/-- A token that holds an offset is the one that the way to the offset leads to. -/
theorem path_of_contains {tree : Tree} {leaf : Node} {offset : Nat} (shape : tree.WellFormed)
    (held : tree.Holds leaf) (isToken : leaf.isToken) (holds : leaf.fullSpan.contains offset)
    (inside : offset < tree.width) : leaf.path = tree.pathTo offset := by
  have bounds : tree.offsetAt leaf.path ≤ offset ∧ offset < tree.offsetAt leaf.path + leaf.tree.width := by
    simpa [Span.contains, Node.fullSpan, Node.offset, held.root_eq] using holds
  obtain ⟨below, way⟩ := (prefix_pathTo_iff held.present inside).mpr bounds
  obtain ⟨found, present⟩ := get?_pathTo inside
  rw [← way, get?_append, held.present, Option.bind_some] at present
  rw [← way, path_of_isToken (shape.get? held.present) isToken present, List.append_nil]

theorem contains_of_findAt {tree : Tree} {offset : Nat} (shape : tree.WellFormed) (inside : offset < tree.width) :
    ∃ leaf, tree.findAt offset = .ok leaf ∧ tree.Holds leaf ∧ leaf.isToken ∧ leaf.fullSpan.contains offset ∧
      leaf.path = tree.pathTo offset := by
  obtain ⟨leaf, found, sameRoot, way, valid⟩ := findAt_eq_ok inside
  have held : tree.Holds leaf := ⟨sameRoot, valid⟩
  have present := held.present
  have bounds := (prefix_pathTo_iff present inside).mp (way ▸ List.prefix_rfl)
  refine ⟨leaf, found, held, isToken_of_pathTo shape inside (way ▸ present), ?_, way⟩
  simpa [Span.contains, Node.fullSpan, Node.offset, held.root_eq] using bounds

/-- An offset inside the text leads to the only token that holds it, any other offset nowhere. -/
theorem findAt_exact {tree : Tree} (shape : tree.WellFormed) (offset : Nat) :
    (offset < tree.width → ∃ leaf, tree.findAt offset = .ok leaf ∧ leaf.isToken ∧
      ∀ node, (tree.Holds node ∧ node.isToken ∧ node.fullSpan.contains offset) ↔ node = leaf) ∧
    (tree.width ≤ offset → tree.findAt offset = .error (.outside offset)) := by
  refine ⟨?_, findAt_eq_error⟩
  intro inside
  obtain ⟨leaf, found, held, isToken, holds, way⟩ := contains_of_findAt shape inside
  refine ⟨leaf, found, isToken, ?_⟩
  intro node
  constructor
  · intro other
    obtain ⟨standing, isLeaf, here⟩ := other
    exact standing.eq_of_path held ((path_of_contains shape standing isLeaf here inside).trans way.symm)
  · intro same
    rw [same]
    exact ⟨held, isToken, holds⟩

def hollowed : Tree :=
  .node .compilationUnit
    [.node .unknown [], .node .block
      [.node .unknown [.node .unknown []], .token .identifier "" "", .token .punctuation "/**/ " "\x7b", .node .unknown [],
        .token .punctuation "\n" "\x7d"],
      .node .unknown [], .token .endOfFile "\n" ""]

theorem findAt_exact_hollowed :
    hollowed.WellFormed ∧ hollowed.width = 9 ∧
      (∃ leaf, hollowed.findAt 0 = .ok leaf ∧ leaf.path = [1, 2] ∧ leaf.fullSpan = ⟨0, 6⟩ ∧
        ∀ node, (hollowed.Holds node ∧ node.isToken ∧ node.fullSpan.contains 0) ↔ node = leaf) ∧
      hollowed.findAt 9 = .error (.outside 9) := by
  have shape : hollowed.WellFormed := by
    simp [hollowed, WellFormed, AllWellFormed, Kind.isToken]
  have wide : hollowed.width = 9 := by decide +kernel
  have shown : (hollowed.findAt 0).toOption.map (fun leaf => (leaf.path, leaf.fullSpan)) = some ([1, 2], ⟨0, 6⟩) := by
    decide +kernel
  obtain ⟨leaf, found, _, only⟩ := (findAt_exact shape 0).1 (by rw [wide]; decide)
  rw [found, Except.toOption, Option.map_some, Option.some_inj, Prod.mk.injEq] at shown
  exact ⟨shape, wide, ⟨leaf, found, shown.1, shown.2, only⟩, (findAt_exact shape 9).2 (Nat.le_of_eq wide)⟩

structure Matches (tree : Tree) (kind : Kind) (span : Span) (node : Node) : Prop where
  held : tree.Holds node
  kind_eq : node.kind = kind
  span_eq : node.span = span

/-- Of the nodes with a property, the one that lies inside all others. -/
structure Innermost (wanted : Node → Prop) (node : Node) : Prop where
  matched : wanted node
  inside : ∀ other, wanted other → other.path <+: node.path

theorem covers_iff {tree : Tree} {kind : Kind} {span : Span} {node : Node} :
    Covers tree kind span node ↔ span.start < span.stop ∧ Innermost (tree.Matches kind span) node := by
  constructor
  · intro covers
    refine ⟨covers.nonempty, ⟨⟨covers.root_eq, covers.valid⟩, covers.kind_eq, covers.span_eq⟩, ?_⟩
    intro other found
    exact covers.innermost other found.held.root_eq found.held.valid found.kind_eq found.span_eq
  · intro lookup
    obtain ⟨nonempty, found, inside⟩ := lookup
    refine ⟨found.held.root_eq, found.held.valid, found.kind_eq, found.span_eq, nonempty, ?_⟩
    intro other sameRoot valid sameKind sameSpan
    exact inside other ⟨⟨sameRoot, valid⟩, sameKind, sameSpan⟩

theorem exists_covering_iff {tree : Tree} {kind : Kind} {span : Span} :
    (∃ node, tree.covering kind span = .ok node) ↔ span.start < span.stop ∧ ∃ node, tree.Matches kind span node := by
  constructor
  · intro success
    obtain ⟨node, found⟩ := success
    obtain ⟨nonempty, innermost⟩ := covers_iff.mp (covering_eq_ok_iff.mp found)
    exact ⟨nonempty, node, innermost.matched⟩
  · intro lookup
    obtain ⟨nonempty, node, found⟩ := lookup
    exact exists_covering found.held.root_eq found.held.valid found.kind_eq found.span_eq nonempty

/-- A lookup fails because of its offset, or else because nothing matches. -/
theorem covering_eq_error {tree : Tree} {kind : Kind} {span : Span} (missing : ∀ node, tree.covering kind span ≠ .ok node) :
    tree.covering kind span =
      .error (if tree.width ≤ span.start then .outside span.start else .unmatched kind span) := by
  by_cases outside : tree.width ≤ span.start
  · rw [if_pos outside, covering, findAt_eq_error outside]
  · obtain ⟨inner, located, _⟩ := findAt_eq_ok (Nat.lt_of_not_le outside)
    rw [covering, located] at missing
    rw [if_neg outside, covering, located]
    simp only at missing ⊢
    split
    next found search =>
      rw [search] at missing
      exact absurd rfl (missing found)
    next => rfl

/-- A lookup by kind and span goes through exactly if the span is not empty and some node has both. It gives the
innermost of those nodes, and otherwise says whether the span starts behind the text. -/
theorem covering_exact (tree : Tree) (kind : Kind) (span : Span) :
    ((∃ node, tree.covering kind span = .ok node) ↔
      span.start < span.stop ∧ ∃ node, tree.Matches kind span node) ∧
    (∀ node, tree.covering kind span = .ok node → Innermost (tree.Matches kind span) node) ∧
    ((∀ node, tree.covering kind span ≠ .ok node) →
      tree.covering kind span =
        .error (if tree.width ≤ span.start then .outside span.start else .unmatched kind span)) ∧
    ∀ node, tree.Holds node → node.span.length = 0 → ∀ found, tree.covering node.kind node.span ≠ .ok found := by
  refine ⟨exists_covering_iff, ?_, covering_eq_error, ?_⟩
  · intro node found
    exact (covers_iff.mp (covering_eq_ok_iff.mp found)).2
  · intro node _ empty found success
    have nonempty := (exists_covering_iff.mp ⟨found, success⟩).1
    rw [Span.length] at empty
    omega

-- The outer of two blocks with one span cannot be looked up, and neither can a token without text.
example :
    let block : Tree := .node .block [.node .block [.token .punctuation " " "\x7b", .token .identifier "" ""]]
    (block.covering .block ⟨1, 2⟩).toOption.map Node.path = some [0] ∧
      (block.covering .identifier ⟨2, 2⟩).toOption.map Node.path = none ∧
      (block.covering .identifier ⟨1, 2⟩).toOption.map Node.path = none := by
  decide +kernel

end TreeLint.Tree
