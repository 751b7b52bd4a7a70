import TreeLint.Proofs.Bytes
import TreeLint.Proofs.Inheritance

/-! What putting a tree in the place of a node changes. The text changes in the bytes of that node, and every node that
neither holds it nor lies in it is found as it was, at the same path: where it stood if it comes before the node, and
otherwise moved by what the new tree is longer or shorter than the old one. -/

namespace TreeLint

namespace Node
open TreeLint.Tree

def within (later : Tree) (node : Node) : Node :=
  ⟨later, node.path, node.tree⟩

/-- A tree in which a replacement stands where the node stood, and which otherwise is the tree of the node. -/
structure Replaced (node : Node) (replacement later : Tree) : Prop where
  shape : later.WellFormed
  bytes : Text.bytes later.text = (Text.bytes node.root.text).take node.fullSpan.start ++
    Text.bytes replacement.text ++ (Text.bytes node.root.text).drop node.fullSpan.stop
  here : later.get? node.path = some replacement
  apart : ∀ path, Apart node.path path → later.get? path = node.root.get? path
  before : ∀ other, node.root.Holds other → Precedes other.path node.path →
    (other.within later).fullSpan = other.fullSpan
  behind : ∀ other, node.root.Holds other → Precedes node.path other.path →
    ((other.within later).fullSpan.start : Int) = other.fullSpan.start + (replacement.width - node.tree.width) ∧
    ((other.within later).fullSpan.stop : Int) = other.fullSpan.stop + (replacement.width - node.tree.width)

section
variable {tree replacement : Tree} {node : Node} (held : tree.Holds node)

include held

theorem bytes_replaceWith (shape : tree.WellFormed) :
    Text.bytes (node.replaceWith replacement).text = (Text.bytes tree.text).take node.fullSpan.start ++
      Text.bytes replacement.text ++ (Text.bytes tree.text).drop node.fullSpan.stop := by
  have present := held.present
  have front : (Text.bytes (tree.textBefore node.path)).length = node.fullSpan.start := by
    rw [Text.length_bytes, size_textBefore shape present, ← held.root_eq]
    rfl
  have wide : (Text.bytes (tree.textBefore node.path) ++ Text.bytes node.tree.text).length = node.fullSpan.stop := by
    rw [List.length_append, front, Text.length_bytes, ← width_eq_utf8ByteSize (shape.get? present)]
    rfl
  have whole : Text.bytes tree.text = Text.bytes (tree.textBefore node.path) ++ Text.bytes node.tree.text ++
      Text.bytes (tree.textAfter node.path) := by
    rw [text_around shape present, Text.bytes_append, Text.bytes_append]
  have early : (Text.bytes tree.text).take node.fullSpan.start = Text.bytes (tree.textBefore node.path) := by
    rw [whole, List.append_assoc, List.take_left' front]
  have late : (Text.bytes tree.text).drop node.fullSpan.stop = Text.bytes (tree.textAfter node.path) := by
    rw [whole, List.drop_left' wide]
  rw [early, late, replaceWith, held.root_eq, text_replaceAt shape present, Text.bytes_append, Text.bytes_append]

variable {other : Node} (standing : tree.Holds other)

include standing

theorem fullSpan_before (order : Precedes other.path node.path) :
    (other.within (node.replaceWith replacement)).fullSpan = other.fullSpan := by
  have kept := order.offsetAt_before held.present standing.present replacement
  simp only [fullSpan, offset, within, replaceWith, held.root_eq, standing.root_eq, kept]

theorem fullSpan_behind (order : Precedes node.path other.path) :
    ((other.within (node.replaceWith replacement)).fullSpan.start : Int) =
        other.fullSpan.start + (replacement.width - node.tree.width) ∧
      ((other.within (node.replaceWith replacement)).fullSpan.stop : Int) =
        other.fullSpan.stop + (replacement.width - node.tree.width) := by
  have moved := order.offsetAt_behind held.present standing.present replacement
  simp only [fullSpan, offset, within, replaceWith, held.root_eq, standing.root_eq]
  omega

end

/-- Putting a tree in the place of a node changes that place and nothing else. -/
theorem replaceWith_replaced {tree replacement : Tree} {node : Node} (shape : tree.WellFormed) (held : tree.Holds node)
    (fresh : replacement.WellFormed) : node.Replaced replacement (node.replaceWith replacement) where
  shape := by
    rw [replaceWith, held.root_eq]
    exact shape.replaceAt held.present fresh
  bytes := by
    rw [held.root_eq]
    exact bytes_replaceWith held shape
  here := by
    rw [replaceWith, held.root_eq]
    exact get?_replaceAt_self held.present replacement
  apart := by
    intro path apart
    exact get?_replaceAt_apart apart replacement
  before := by
    intro other standing order
    rw [held.root_eq] at standing
    exact fullSpan_before held standing order
  behind := by
    intro other standing order
    rw [held.root_eq] at standing
    exact fullSpan_behind held standing order

def addition : Tree :=
  .node .compilationUnit
    [.node .block [.token .identifier "" "é", .token .punctuation " " "+", .token .identifier " " "b"],
      .token .endOfFile "\n" ""]

/-- Without its sign, which has two bytes, what is behind the sign moves by as many to the front. -/
theorem replaceWith_replaced_addition :
    ∃ sign left right, addition.WellFormed ∧ addition.Holds sign ∧ sign.fullSpan = ⟨2, 4⟩ ∧
      sign.Replaced (.node .unknown []) (sign.replaceWith (.node .unknown [])) ∧
      addition.Holds left ∧ Precedes left.path sign.path ∧ left.fullSpan = ⟨0, 2⟩ ∧
      (left.within (sign.replaceWith (.node .unknown []))).fullSpan = ⟨0, 2⟩ ∧
      addition.Holds right ∧ Precedes sign.path right.path ∧ right.fullSpan = ⟨4, 6⟩ ∧
      (right.within (sign.replaceWith (.node .unknown []))).fullSpan = ⟨2, 4⟩ ∧
      (sign.replaceWith (.node .unknown [])).text = "é b\n" := by
  let sign : Node := ⟨addition, [0, 1], .token .punctuation " " "+"⟩
  let left : Node := ⟨addition, [0, 0], .token .identifier "" "é"⟩
  let right : Node := ⟨addition, [0, 2], .token .identifier " " "b"⟩
  have shape : addition.WellFormed := by simp [addition, WellFormed, AllWellFormed, Kind.isToken]
  have fresh : (Tree.node .unknown []).WellFormed := by simp [WellFormed, AllWellFormed, Kind.isToken]
  have held : addition.Holds sign := ⟨rfl, rfl⟩
  have replaced := replaceWith_replaced shape held fresh
  have before : Precedes left.path sign.path := .inr ⟨rfl, .inl Nat.zero_lt_one⟩
  have behind : Precedes sign.path right.path := .inr ⟨rfl, .inl (Nat.lt_succ_self 1)⟩
  exact ⟨sign, left, right, shape, held, by decide +kernel, replaced, ⟨rfl, rfl⟩, before, by decide +kernel,
    (replaced.before left ⟨rfl, rfl⟩ before).trans (by decide +kernel), ⟨rfl, rfl⟩, behind, by decide +kernel,
    by decide +kernel, by decide +kernel⟩

end Node

end TreeLint
