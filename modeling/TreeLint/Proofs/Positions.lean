import TreeLint.Proofs.Bytes
import TreeLint.Proofs.Derivation
import TreeLint.Proofs.Inheritance

/-! Where nodes stand in the text of their tree. Widths add up from the leaves, offsets from the root, and the trivia of
a node is looked up at its first token. The three agree, byte for byte, in every tree that can be made from well-formed
ones. -/

namespace TreeLint

namespace Tree

mutual

/-- The tree with a token in place of each node of a token kind. Such a node has neither trivia nor text, so it may as
well be a token that has none. -/
def restored : Tree → Tree
  | token kind leading text => token kind leading text
  | node kind children => if kind.isToken then token kind "" "" else node kind (restoredAll children)

def restoredAll : List Tree → List Tree
  | [] => []
  | tree :: rest => tree.restored :: restoredAll rest

end

theorem restoredAll_eq_map (trees : List Tree) : restoredAll trees = trees.map restored := by
  induction trees with
  | nil => rfl
  | cons tree rest ih => rw [restoredAll, ih, List.map_cons]

theorem restored_node {kind : Kind} (inner : kind.isToken = false) (children : List Tree) :
    (node kind children).restored = node kind (children.map restored) := by
  rw [restored, inner, restoredAll_eq_map]
  rfl

theorem restored_emptied {kind : Kind} (isToken : kind.isToken = true) (children : List Tree) :
    (node kind children).restored = token kind "" "" := by
  rw [restored, if_pos isToken]

theorem Sound.wellFormed_restored {tree : Tree} (sound : tree.Sound) : tree.restored.WellFormed := by
  induction tree with
  | token kind leading text => exact sound
  | node kind children ih =>
    cases isToken : kind.isToken with
    | true =>
      rw [restored_emptied isToken]
      exact isToken
    | false =>
      rw [restored_node isToken]
      refine (wellFormed_node _ _).mpr ⟨isToken, ?_⟩
      intro child member
      obtain ⟨old, present, rfl⟩ := List.mem_map.mp member
      exact ih old present (sound.child present)

theorem Sound.children_restored {tree : Tree} (sound : tree.Sound) :
    tree.restored.children = tree.children.map restored := by
  cases tree with
  | token kind leading text => rfl
  | node kind children =>
    cases isToken : kind.isToken with
    | true =>
      rw [restored_emptied isToken, sound.leaf isToken]
      rfl
    | false =>
      rw [restored_node isToken]
      rfl

theorem Sound.get?_restored {tree : Tree} (sound : tree.Sound) (path : List Nat) :
    tree.restored.get? path = (tree.get? path).map restored := by
  induction path generalizing tree with
  | nil => simp
  | cons index path ih =>
    rw [get?_cons, get?_cons, sound.children_restored, List.getElem?_map]
    cases known : tree.children[index]? with
    | none => rfl
    | some child => exact ih (sound.child (List.mem_of_getElem? known))

theorem Sound.width_restored {tree : Tree} (sound : tree.Sound) : tree.restored.width = tree.width := by
  have widths_restored : ∀ trees : List Tree, (∀ tree ∈ trees, tree.restored.width = tree.width) →
      widths (trees.map restored) = widths trees := by
    intro trees each
    induction trees with
    | nil => rfl
    | cons tree rest ih =>
      obtain ⟨head, tail⟩ := List.forall_mem_cons.mp each
      rw [List.map_cons, widths, widths, head, ih tail]
  induction tree with
  | token kind leading text => rfl
  | node kind children ih =>
    cases isToken : kind.isToken with
    | true =>
      have none : children = [] := sound.leaf isToken
      rw [restored_emptied isToken, none]
      rfl
    | false =>
      rw [restored_node isToken, width, width]
      exact widths_restored children fun child member => ih child member (sound.child member)

theorem Sound.offsetAt_restored {tree found : Tree} {path : List Nat} (sound : tree.Sound)
    (present : tree.get? path = some found) : tree.restored.offsetAt path = tree.offsetAt path := by
  induction path generalizing tree with
  | nil => simp
  | cons index path ih =>
    obtain ⟨child, known, rest⟩ := get?_cons_eq_some.mp present
    have below := sound.child (List.mem_of_getElem? known)
    have early : widths ((tree.children.take index).map restored) = widths (tree.children.take index) := by
      have part : (node .unknown (tree.children.take index)).Sound :=
        sound_inner rfl fun other member => sound.child (List.mem_of_mem_take member)
      have size := part.width_restored
      rwa [restored_node rfl, width, width] at size
    have same : tree.restored.children[index]? = some child.restored := by
      rw [sound.children_restored, List.getElem?_map, known]
      rfl
    rw [offsetAt_cons known, offsetAt_cons same, ih below rest, sound.children_restored, ← List.map_take, early]

mutual

theorem text_restored (tree : Tree) : tree.restored.text = tree.text := by
  cases tree with
  | token kind leading text => rfl
  | node kind children =>
    cases isToken : kind.isToken with
    | true => simp [restored, Tree.text, isToken]
    | false => simp [restored, Tree.text, isToken, texts_restoredAll children]

theorem texts_restoredAll (trees : List Tree) : texts (restoredAll trees) = texts trees := by
  cases trees with
  | nil => rfl
  | cons tree rest => rw [restoredAll, texts, texts, text_restored tree, texts_restoredAll rest]

end

mutual

theorem firstToken?_restored (tree : Tree) : tree.restored.firstToken? = tree.firstToken?.map restored := by
  cases tree with
  | token kind leading text =>
    rw [restored, firstToken?]
    split <;> rfl
  | node kind children =>
    cases isToken : kind.isToken with
    | true => simp [restored, firstToken?, isToken]
    | false => simp [restored, firstToken?, isToken, firstTokenOf?_restoredAll children]

theorem firstTokenOf?_restoredAll (trees : List Tree) :
    firstTokenOf? (restoredAll trees) = (firstTokenOf? trees).map restored := by
  cases trees with
  | nil => rfl
  | cons tree rest =>
    rw [restoredAll, firstTokenOf?, firstTokenOf?, firstToken?_restored tree, firstTokenOf?_restoredAll rest]
    cases tree.firstToken? <;> rfl

end

theorem leading_restored (tree : Tree) : tree.restored.leading = tree.leading := by
  have own (token : Tree) : token.restored.ownLeading = token.ownLeading := by
    cases token with
    | token kind leading text => rfl
    | node kind children =>
      rw [restored]
      split <;> rfl
  rw [leading, leading, firstToken?_restored]
  cases tree.firstToken? with
  | none => rfl
  | some first => exact own first

theorem trimmed_restored (tree : Tree) : tree.restored.trimmed = tree.trimmed := by
  rw [trimmed, trimmed, text_restored, leading_restored]

section
variable {tree : Tree} (sound : tree.Sound)

include sound

theorem Sound.width_eq_utf8ByteSize : tree.width = tree.text.utf8ByteSize := by
  rw [← sound.width_restored, ← text_restored]
  exact Tree.width_eq_utf8ByteSize sound.wellFormed_restored

theorem Sound.text_eq_leading_append : tree.text = tree.leading ++ tree.trimmed := by
  rw [← text_restored, ← leading_restored, ← trimmed_restored]
  exact Tree.text_eq_leading_append sound.wellFormed_restored

/-- The text in front of a place has as many bytes as the place has in front of it. -/
theorem Sound.text_around {found : Tree} {path : List Nat} (present : tree.get? path = some found) :
    ∃ before after, tree.text = before ++ (found.text ++ after) ∧ before.utf8ByteSize = tree.offsetAt path := by
  have kept : tree.restored.get? path = some found.restored := by
    rw [sound.get?_restored, present]
    rfl
  obtain ⟨before, after, size, whole, _⟩ := text_split sound.wellFormed_restored kept
  rw [text_restored, text_restored, String.append_assoc] at whole
  exact ⟨before, after, whole, size.trans (sound.offsetAt_restored present)⟩

end

end Tree

namespace Span

def Tiles : Nat → List Span → Nat → Prop
  | start, [], stop => start = stop
  | start, span :: rest, stop => span.start = start ∧ span.start ≤ span.stop ∧ Tiles span.stop rest stop

end Span

namespace Node
open TreeLint.Tree

private theorem offset_below {node : Node} {front rest : List Tree} {child : Tree} (valid : node.Valid)
    (split : node.tree.children = front ++ child :: rest) :
    node.root.offsetAt (node.path ++ [front.length]) = node.offset + widths front := by
  have known : node.tree.children[front.length]? = some child := by
    rw [split]
    simp
  rw [offsetAt_append valid, offsetAt_cons known, offsetAt_nil, Nat.add_zero, split, List.take_left]
  rfl

private theorem tiles_from {node : Node} (valid : node.Valid) {front rest : List Tree}
    (split : node.tree.children = front ++ rest) :
    Span.Tiles (node.offset + widths front)
      (rest.mapIdx fun index child => (Node.mk node.root (node.path ++ [front.length + index]) child).fullSpan)
      (node.offset + widths node.tree.children) := by
  -- By induction on the children still to come; those in front have taken up their bytes.
  induction rest generalizing front with
  | nil =>
    rw [split, List.append_nil]
    rfl
  | cons child rest ih =>
    have start := offset_below valid split
    have onward : node.tree.children = (front ++ [child]) ++ rest := by
      rw [split, List.append_assoc]
      rfl
    have tiled := ih onward
    rw [widths_append, widths, widths, Nat.add_zero, ← Nat.add_assoc] at tiled
    simp only [List.length_append, List.length_singleton, Nat.add_assoc, Nat.add_comm 1] at tiled
    rw [List.mapIdx_cons]
    refine ⟨start, Nat.le_add_right _ _, ?_⟩
    simpa only [fullSpan, offset, Nat.add_zero, start, Nat.add_assoc] using tiled

/-- The children of a node share out its bytes in order. -/
theorem Valid.tiles_children {node : Node} (valid : node.Valid) (sound : node.tree.Sound) (inner : node.isToken = false) :
    Span.Tiles node.fullSpan.start (node.children.map fullSpan) node.fullSpan.stop := by
  have tiled := tiles_from valid (List.nil_append node.tree.children).symm
  have total : node.tree.width = widths node.tree.children := by
    cases shape : node.tree with
    | token kind leading text =>
      rw [shape] at sound
      rw [isToken, shape] at inner
      cases sound.symm.trans inner
    | node kind children => rw [width, children_node]
  have spans : node.children.map fullSpan =
      node.tree.children.mapIdx fun index child => (Node.mk node.root (node.path ++ [index]) child).fullSpan := by
    apply List.ext_getElem <;> simp [children]
  rw [← total] at tiled
  simpa only [spans, fullSpan, List.length_nil, Nat.zero_add, widths, Nat.add_zero] using tiled

/-- The places of a node and its text agree: its bytes in the text of the tree, with and without its trivia, those of
its children, and the ways in which they are computed. -/
structure Positioned (node : Node) : Prop where
  width_eq : node.tree.width = node.tree.text.utf8ByteSize
  full : Text.slice? node.root.text node.fullSpan.start node.fullSpan.stop = some node.tree.text
  own : Text.slice? node.root.text node.span.start node.span.stop = some node.text
  cut : Text.sliceFrom? node.tree.text node.tree.leading.utf8ByteSize = some node.text
  order : node.fullSpan.start ≤ node.span.start ∧ node.span.start ≤ node.span.stop ∧ node.span.stop = node.fullSpan.stop
  inside : node.fullSpan.stop ≤ node.root.text.utf8ByteSize
  leaf : node.isToken → node.children = []
  tiles : node.isToken = false → Span.Tiles node.fullSpan.start (node.children.map fullSpan) node.fullSpan.stop

theorem Valid.positioned {node : Node} (valid : node.Valid) (sound : node.root.Sound) : node.Positioned := by
  have own := sound.get? valid
  have trimmed := own.text_eq_leading_append
  have size := own.width_eq_utf8ByteSize
  have sizes : node.tree.width = node.tree.leading.utf8ByteSize + node.text.utf8ByteSize := by
    rw [size, trimmed, String.utf8ByteSize_append]
    rfl
  obtain ⟨before, after, whole, start⟩ := sound.text_around valid
  refine ⟨size, ?_, ?_, ?_, ?_, ?_, ?_, ?_⟩
  · apply Text.slice?_eq whole start
    rw [← size]
    rfl
  · have here : node.root.text = (before ++ node.tree.leading) ++ (node.text ++ after) := by
      rw [whole, trimmed, String.append_assoc, String.append_assoc]
      rfl
    apply Text.slice?_eq here
    · rw [String.utf8ByteSize_append, start]
      rfl
    · rw [span, sizes, Nat.add_assoc]
  · rw [trimmed]
    exact Text.sliceFrom?_append _ _
  · refine ⟨Nat.le_add_right _ _, ?_, rfl⟩
    rw [span, sizes, ← Nat.add_assoc]
    exact Nat.le_add_right _ _
  · rw [← sound.width_eq_utf8ByteSize]
    exact offsetAt_add_width_le valid
  · intro isToken
    rw [children, own.leaf isToken]
    rfl
  · exact valid.tiles_children own

end Node

namespace Tree

inductive Reachable (tree : Tree) : Node → Prop where
  | root : Reachable tree tree.asNode
  | child {node child : Node} (above : Reachable tree node) (member : child ∈ node.children) : Reachable tree child

theorem Reachable.holds {tree : Tree} {node : Node} (reachable : tree.Reachable node) : tree.Holds node := by
  induction reachable with
  | root => exact holds_asNode tree
  | child above member ih => exact ih.child member

/-- In whatever tree can be made from well-formed ones, every node has its text where its spans say. -/
theorem derived_positioned {tree : Tree} {node : Node} (derived : Derived tree) (reachable : tree.Reachable node) :
    node.root = tree ∧ node.Positioned := by
  have held := reachable.holds
  refine ⟨held.root_eq, held.valid.positioned ?_⟩
  rw [held.root_eq]
  exact derived.sound

private def emptied : Tree :=
  (Tree.token .keyword "" "bool").replaceChild 0 (.token .keyword "" "var")

def patched : Tree :=
  (((node .block [.token .punctuation "é" "\x7b", .token .identifier " " "größe"]).insertChild 0 emptied).withLeading
    "// ü\n").insertChild 9 emptied

private theorem derived_patched : Derived patched := by
  have lost : Derived emptied := .replaceChild (.token rfl "bool") 0 (.token rfl "var")
  have block : Derived (node .block [.token .punctuation "é" "\x7b", .token .identifier " " "größe"]) := by
    apply Derived.start
    simp [WellFormed, AllWellFormed, Kind.isToken]
  exact .insertChild (.withLeading (.insertChild block rfl 0 lost) _) rfl 9 lost

theorem derived_positioned_patched :
    ∃ node, Derived patched ∧ patched.Reachable node ∧ node.span = ⟨10, 17⟩ ∧ node.text = "größe" ∧
      node.root = patched ∧ node.Positioned := by
  let name : Node := ⟨patched, [2], .token .identifier " " "größe"⟩
  have member : name ∈ patched.asNode.children := List.mem_of_getElem? (i := 2) rfl
  have reachable : patched.Reachable name := .child .root member
  exact ⟨name, derived_patched, reachable, by decide +kernel, by decide +kernel,
    derived_positioned derived_patched reachable⟩

end Tree

end TreeLint
