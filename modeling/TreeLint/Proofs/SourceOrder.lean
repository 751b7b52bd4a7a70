import Mathlib.Data.Prod.Lex
import TreeLint.Proofs.Findings
import TreeLint.Proofs.LineNumbers

/-! The order of reports. A walk meets places in the order of their paths, and the text of a place starts at its first
token. A node without tokens may start in front of the nodes around it, but every report stands at a token, so reports
come out in the order of the text. -/

namespace TreeLint

namespace Tree

/-- Of two paths in order the first leads to something around the second, or turns off before it. -/
theorem prefix_or_precedes {first second : List Nat} (order : first < second) :
    first <+: second ∨ Precedes first second := by
  induction first generalizing second with
  | nil => exact .inl List.nil_prefix
  | cons index first ih =>
    cases second with
    | nil => exact absurd order (List.not_lt_nil _)
    | cons position second =>
      rcases List.cons_lt_cons_iff.mp order with before | ⟨rfl, later⟩
      · exact .inr (.inl before)
      · rcases ih later with up | apart
        · exact .inl (List.cons_prefix_cons.mpr ⟨rfl, up⟩)
        · exact .inr (.inr ⟨rfl, apart⟩)

private theorem size_le_sizes {tree : Tree} {trees : List Tree} (member : tree ∈ trees) : tree.size ≤ sizes trees := by
  induction trees with
  | nil => cases member
  | cons first rest ih =>
    rw [sizes]
    rcases List.mem_cons.mp member with rfl | later
    · omega
    · have below := ih later
      omega

/-- What is found inside a tree is smaller than the tree. -/
theorem size_lt_of_get? {tree found : Tree} {path : List Nat} (present : tree.get? path = some found)
    (proper : path ≠ []) :
    found.size < tree.size := by
  induction path generalizing tree with
  | nil => exact absurd rfl proper
  | cons index path ih =>
    obtain ⟨child, known, rest⟩ := get?_cons_eq_some.mp present
    have smaller : child.size < tree.size := by
      cases tree with
      | token kind leading text => cases known
      | node kind children =>
        have part := size_le_sizes (List.mem_of_getElem? known)
        rw [size]
        exact Nat.lt_one_add_iff.mpr part
    by_cases last : path = []
    · rw [last, get?_nil, Option.some_inj] at rest
      rwa [← rest]
    · exact Nat.lt_trans (ih rest last) smaller

end Tree

namespace Node
open TreeLint.Tree

variable {tree : Tree} {first second : Node} (one : tree.Holds first) (two : tree.Holds second)
  (order : first.path < second.path)

include one two order

/-- Where there is a token, text starts no earlier than at the places that a walk meets before. -/
theorem span_start_le_of_lt (shape : tree.WellFormed) (full : second.tree.firstToken?.isSome) :
    first.span.start ≤ second.span.start := by
  rcases prefix_or_precedes order with up | apart
  · exact span_start_le (one.root_eq ▸ shape) (two.root_eq.trans one.root_eq.symm) one.valid two.valid up full
  · have gap := apart.offset_le one.present two.present
    have fits := leading_le_width (shape.get? one.present)
    simp only [span, offset, one.root_eq, two.root_eq]
    omega

/-- Places with text in them can be told apart by their subtree and by where it starts. -/
theorem tree_ne_of_lt (nonempty : first.span.start < first.span.stop) (same : first.offset = second.offset) :
    first.tree ≠ second.tree := by
  intro alike
  rcases prefix_or_precedes order with ⟨below, split⟩ | apart
  · have proper : below ≠ [] := by
      rintro rfl
      rw [List.append_nil] at split
      exact List.lt_irrefl _ (split ▸ order)
    have inside := two.valid.get?_below (two.root_eq.trans one.root_eq.symm) one.valid split
    exact absurd (size_lt_of_get? inside proper) (by rw [alike]; exact Nat.lt_irrefl _)
  · have gap := apart.offset_le one.present two.present
    simp only [span, offset, one.root_eq, two.root_eq] at nonempty same
    omega

end Node

theorem span_nonempty {rules : List Rule} {tree : Tree} {defect : Defect} (shape : tree.WellFormed)
    (reported : defect ∈ detect rules tree) : defect.span.start < defect.span.stop := by
  rcases detect_cases reported with ⟨_, node, name, negated, rfl⟩ | ⟨node, receiver, unconverted, rfl⟩
  · exact (negated.covers shape).nonempty
  · exact (unconverted.covers shape).nonempty

/-- Reports come in the order of their places, and those on one node come from different rules. -/
theorem ordered_detect {rules : List Rule} (distinct : rules.Nodup) (tree : Tree) :
    (detect rules tree).Pairwise fun first second =>
      first.anchor.path < second.anchor.path ∨ first.anchor = second.anchor ∧ first.rule ≠ second.rule := by
  rw [detect, List.pairwise_flatMap]
  refine ⟨?_, ?_⟩
  · intro node _
    rw [defectsAt, List.pairwise_filterMap]
    refine (distinct.filter _).imp ?_
    intro rule other apart first firstFound second secondFound
    obtain ⟨firstRule, firstAnchor⟩ := of_check firstFound
    obtain ⟨secondRule, secondAnchor⟩ := of_check secondFound
    exact .inr ⟨firstAnchor.trans secondAnchor.symm, by rwa [firstRule, secondRule]⟩
  · refine (Tree.ordered_selfAndDescendants tree).imp ?_
    intro node other order first firstMember second secondMember
    rw [anchor_of_mem firstMember, anchor_of_mem secondMember]
    exact .inl order

theorem starts_detect {rules : List Rule} {tree : Tree} (shape : tree.WellFormed) (distinct : rules.Nodup) :
    (detect rules tree).Pairwise fun first second => first.span.start ≤ second.span.start := by
  refine (ordered_detect distinct tree).imp_of_mem ?_
  intro first second firstReported secondReported order
  rcases order with earlier | ⟨same, _⟩
  · have held := holds_anchor secondReported
    have full := Node.span_nonempty_full held.valid (held.root_eq ▸ shape) (span_nonempty shape secondReported)
    exact Node.span_start_le_of_lt (holds_anchor firstReported) held earlier shape full
  · exact Nat.le_of_eq (congrArg (fun node : Node => node.span.start) same)

/-- Later places have later positions: lines first, columns inside a line. -/
theorem LineIndex.position_mono (index : LineIndex) {offset other : Nat} (order : offset ≤ other) :
    toLex (index.position offset) ≤ toLex (index.position other) := by
  rw [Prod.Lex.le_iff]
  rcases (index.line_mono order).lt_or_eq with before | same
  · exact .inl before
  · refine .inr ⟨same, ?_⟩
    simp only [ofLex_toLex, position, same]
    omega

def Finding.position (finding : Finding) : Nat × Nat :=
  (finding.line, finding.column)

theorem sorted_findings {rules : List Rule} {tree : Tree} (shape : tree.WellFormed) (distinct : rules.Nodup)
    (file : String) :
    (findings rules file tree).Pairwise fun first second => toLex first.position ≤ toLex second.position := by
  rw [findings_eq, List.pairwise_map]
  exact (starts_detect shape distinct).imp fun order => (LineIndex.ofText tree.text).position_mono order

/-- Reports come in the order of the text: defects by where they start, the findings of a file by line and column. Each
node is reported by a rule at most once, even if nodes are told apart by their subtree and its offset alone. -/
theorem detect_sourceOrder {rules : List Rule} {tree : Tree} (shape : tree.WellFormed) (distinct : rules.Nodup) :
    ((detect rules tree).Pairwise fun first second => first.span.start ≤ second.span.start) ∧
      ((detect rules tree).Pairwise fun first second => first.rule = second.rule →
        first.anchor.path ≠ second.anchor.path ∧
          (first.anchor.offset = second.anchor.offset → first.anchor.tree ≠ second.anchor.tree)) ∧
      (∀ file, (findings rules file tree).Pairwise fun first second => toLex first.position ≤ toLex second.position) ∧
      ∀ (options : Options) (file source : String) (concrete : Concrete),
        (options.analyze file source concrete).findings.Pairwise fun first second =>
          toLex first.position ≤ toLex second.position := by
  refine ⟨starts_detect shape distinct, ?_, sorted_findings shape distinct, ?_⟩
  · refine (ordered_detect distinct tree).imp_of_mem ?_
    intro first second firstReported secondReported order same
    rcases order with earlier | ⟨_, apart⟩
    · exact ⟨fun alike => List.lt_irrefl _ (alike ▸ earlier), Node.tree_ne_of_lt (holds_anchor firstReported)
        (holds_anchor secondReported) earlier (span_nonempty shape firstReported)⟩
    · exact absurd same apart
  · intro options file source concrete
    have final := options.wellFormed_fixed (Concrete.wellFormed_toTree source concrete)
    have all : Rule.all.Nodup := by decide
    have enabled : options.rules.Nodup := by
      rw [Options.rules, Rule.enabled]
      exact all.filter _
    exact (sorted_findings final enabled file).filter _

def nestedValues : Tree :=
  .node .compilationUnit
    [.node .block [],
      .node .variableDeclaration
        [.token .predefinedType "/* é */\n" "bool",
          .node .variableDeclarator
            [.token .identifier " " "notA", .token .punctuation " " "=",
              .node .block
                [.node .variableDeclaration
                  [.token .predefinedType " " "bool", .node .variableDeclarator [.token .identifier " " "notB"]]]]]]

theorem detect_sourceOrder_nestedValues :
    nestedValues.WellFormed ∧ Rule.all.Nodup ∧ ∃ outer inner, detect Rule.all nestedValues = [outer, inner] ∧
      outer.rule = inner.rule ∧ outer.span.start ≤ inner.span.start ∧ outer.anchor.path ≠ inner.anchor.path ∧
      (findings Rule.all "A.cs" nestedValues).map Finding.position = [(2, 1), (2, 13)] ∧
      ((findings Rule.all "A.cs" nestedValues).Pairwise fun first second => toLex first.position ≤ toLex second.position) := by
  have shape : nestedValues.WellFormed := by
    simp [nestedValues, Tree.WellFormed, Tree.AllWellFormed, Kind.isToken]
  have distinct : Rule.all.Nodup := by decide
  obtain ⟨starts, apart, sorted, _⟩ := detect_sourceOrder shape distinct
  obtain ⟨outer, inner, two⟩ := List.length_eq_two.mp (show (detect Rule.all nestedValues).length = 2 by decide +kernel)
  have names : (detect Rule.all nestedValues).map Defect.rule = [.negatedName, .negatedName] := by decide +kernel
  rw [two] at starts apart names
  simp only [List.map_cons, List.map_nil, List.cons.injEq, and_true] at names
  have same : outer.rule = inner.rule := names.1.trans names.2.symm
  have second : inner ∈ [inner] := List.mem_singleton_self inner
  exact ⟨shape, distinct, outer, inner, two, same, List.rel_of_pairwise_cons starts second,
    (List.rel_of_pairwise_cons apart second same).1, by decide +kernel, sorted "A.cs"⟩

end TreeLint
