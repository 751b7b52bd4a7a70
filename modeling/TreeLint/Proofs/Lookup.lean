import TreeLint.Proofs.Places
import TreeLint.Tree.Lookup

/-! What a lookup finds. The nodes around an offset are those whose bytes hold it, and looking up a
kind and a span gives the innermost node that has both. The second fact is an equivalence, so the
rest of the theory reasons about kinds and spans and not about the search. -/

namespace TreeLint

namespace Tree

private theorem pathAmong_eq (trees : List Tree) (index offset : Nat) (inside : offset < widths trees) :
    ∃ position child, trees[position]? = some child ∧ widths (trees.take position) ≤ offset ∧
      offset < widths (trees.take position) + child.width ∧
      pathAmong trees index offset =
        (index + position) :: child.pathTo (offset - widths (trees.take position)) := by
  induction trees generalizing index offset with
  | nil => simp [widths] at inside
  | cons tree rest ih =>
    rw [widths] at inside
    rw [pathAmong]
    by_cases here : offset < tree.width
    · exact ⟨0, tree, rfl, by simp [widths], by simpa [widths] using here, by simp [here, widths]⟩
    · obtain ⟨position, child, known, lower, upper, path⟩ := ih (index + 1) (offset - tree.width) (by omega)
      refine ⟨position + 1, child, by simpa using known, ?_, ?_, ?_⟩
      · rw [List.take_succ_cons, widths]; omega
      · rw [List.take_succ_cons, widths]; omega
      · rw [if_neg here, path, List.take_succ_cons, widths, Nat.sub_add_eq]
        congr 1
        omega

private theorem pathTo_eq {tree : Tree} {offset : Nat} (inner : tree.children ≠ []) (inside : offset < tree.width) :
    ∃ position child, tree.children[position]? = some child ∧ widths (tree.children.take position) ≤ offset ∧
      offset < widths (tree.children.take position) + child.width ∧
      tree.pathTo offset = position :: child.pathTo (offset - widths (tree.children.take position)) := by
  cases tree with
  | token kind leading text => exact absurd rfl inner
  | node kind children => simpa [pathTo] using pathAmong_eq children 0 offset inside

theorem get?_pathTo {tree : Tree} {offset : Nat} (inside : offset < tree.width) :
    ∃ found, tree.get? (tree.pathTo offset) = some found := by
  induction tree generalizing offset with
  | token kind leading text => exact ⟨_, by rw [pathTo, get?_nil]⟩
  | node kind children ih =>
    by_cases inner : children = []
    · subst inner
      simp [width, widths] at inside
    · have inner : (node kind children).children ≠ [] := inner
      obtain ⟨position, child, known, lower, upper, path⟩ := pathTo_eq inner inside
      simp only [children_node] at known lower upper path
      have within : offset - widths (children.take position) < child.width := by omega
      obtain ⟨found, present⟩ := ih child (List.mem_of_getElem? known) within
      exact ⟨found, by rw [path]; exact get?_cons_eq_some.mpr ⟨child, known, present⟩⟩

/-- The way to an offset ends at a token. -/
theorem isToken_of_pathTo {tree found : Tree} {offset : Nat} (shape : tree.WellFormed) (inside : offset < tree.width)
    (present : tree.get? (tree.pathTo offset) = some found) : found.isToken = true := by
  induction tree generalizing offset with
  | token kind leading text =>
    rw [pathTo, get?_nil] at present
    cases present
    exact shape
  | node kind children ih =>
    have inner : (node kind children).children ≠ [] := by
      rintro rfl
      simp [width, widths] at inside
    obtain ⟨position, child, known, lower, upper, path⟩ := pathTo_eq inner inside
    rw [path] at present
    obtain ⟨held, here, rest⟩ := get?_cons_eq_some.mp present
    rw [known] at here
    cases here
    have member := List.mem_of_getElem? known
    exact ih child member (shape.child member) (by omega) rest

/-- The way to an offset leads through exactly the places whose bytes hold it. -/
theorem prefix_pathTo_iff {tree found : Tree} {path : List Nat} {offset : Nat}
    (present : tree.get? path = some found) (inside : offset < tree.width) :
    path <+: tree.pathTo offset ↔
      tree.offsetAt path ≤ offset ∧ offset < tree.offsetAt path + found.width := by
  induction path generalizing tree offset with
  | nil =>
    rw [get?_nil] at present
    cases present
    simpa using inside
  | cons index path ih =>
    obtain ⟨child, known, rest⟩ := get?_cons_eq_some.mp present
    obtain ⟨position, held, here, lower, upper, way⟩ :=
      pathTo_eq (List.ne_nil_of_mem (List.mem_of_getElem? known)) inside
    have inner := offsetAt_add_width_le rest
    rw [way, List.cons_prefix_cons, offsetAt_cons known]
    constructor
    · rintro ⟨rfl, up⟩
      rw [known] at here
      cases here
      have bounds := (ih rest (by omega)).mp up
      omega
    · intro bounds
      rcases Nat.lt_trichotomy index position with before | rfl | behind
      · have gap := widths_take_le known before
        omega
      · rw [known] at here
        cases here
        exact ⟨rfl, (ih rest (by omega)).mpr (by omega)⟩
      · have gap := widths_take_le here behind
        omega

theorem findAt_eq_ok {root : Tree} {offset : Nat} (inside : offset < root.width) :
    ∃ inner, root.findAt offset = .ok inner ∧ inner.root = root ∧ inner.path = root.pathTo offset ∧
      inner.Valid := by
  obtain ⟨found, present⟩ := get?_pathTo inside
  refine ⟨⟨root, root.pathTo offset, found⟩, ?_, rfl, rfl, present⟩
  simp [findAt, inside, nodeAt?, present]

theorem findAt_eq_error {root : Tree} {offset : Nat} (outside : root.width ≤ offset) :
    root.findAt offset = .error (.outside offset) := by
  simp [findAt, Nat.not_lt.mpr outside]

end Tree

namespace Node
open TreeLint.Tree

theorem ext_of_path {first second : Node} (sameRoot : first.root = second.root)
    (samePath : first.path = second.path) (valid : first.Valid) (other : second.Valid) : first = second := by
  obtain ⟨root, path, tree⟩ := first
  obtain ⟨_, _, found⟩ := second
  cases sameRoot
  cases samePath
  have same : some tree = some found := valid.symm.trans other
  cases same
  rfl

theorem Valid.get?_below {root tree : Tree} {path below : List Nat} {node : Node} (valid : node.Valid)
    (sameRoot : node.root = root) (present : root.get? path = some tree) (split : path ++ below = node.path) :
    tree.get? below = some node.tree := by
  have whole : root.get? (path ++ below) = some node.tree := by
    rw [split, ← sameRoot]
    exact valid
  rwa [get?_append, present, Option.bind_some] at whole

private theorem prefix_of_mem_trail {root tree : Tree} {above path : List Nat} {node : Node}
    (member : node ∈ trail root tree above path) : above <+: node.path := by
  induction path generalizing tree above with
  | nil =>
    rw [trail, List.mem_singleton] at member
    exact member ▸ List.prefix_rfl
  | cons index path ih =>
    rw [trail] at member
    rcases List.mem_cons.mp member with rfl | later
    · exact List.prefix_rfl
    · cases known : tree.children[index]? with
      | none => rw [known] at later; cases later
      | some child =>
        rw [known] at later
        exact (List.prefix_append above [index]).trans (ih later)

private theorem pairwise_trail (root tree : Tree) (above path : List Nat) :
    (trail root tree above path).Pairwise fun first second => first.path <+: second.path := by
  induction path generalizing tree above with
  | nil => simp [trail]
  | cons index path ih =>
    rw [trail]
    cases known : tree.children[index]? with
    | none => simp
    | some child =>
      refine List.pairwise_cons.mpr ⟨fun node member => ?_, ih child (above ++ [index])⟩
      exact (List.prefix_append above [index]).trans (prefix_of_mem_trail member)

private theorem mem_trail {root tree : Tree} {above : List Nat} (present : root.get? above = some tree)
    (path : List Nat) (node : Node) :
    node ∈ trail root tree above path ↔
      node.root = root ∧ node.Valid ∧ above <+: node.path ∧ node.path <+: above ++ path := by
  induction path generalizing tree above with
  | nil =>
    rw [trail, List.mem_singleton, List.append_nil]
    constructor
    · rintro rfl
      exact ⟨rfl, present, List.prefix_rfl, List.prefix_rfl⟩
    · intro ⟨sameRoot, valid, lower, upper⟩
      have same : node.path = above := (upper.eq_of_length_le lower.length_le)
      exact ext_of_path sameRoot same valid present
  | cons index path ih =>
    rw [trail, List.mem_cons]
    constructor
    · rintro (rfl | later)
      · exact ⟨rfl, present, List.prefix_rfl, List.prefix_append _ _⟩
      · cases known : tree.children[index]? with
        | none => rw [known] at later; cases later
        | some child =>
          rw [known] at later
          obtain ⟨sameRoot, valid, lower, upper⟩ := (ih (get?_concat present known)).mp later
          exact ⟨sameRoot, valid, (List.prefix_append above [index]).trans lower, by simpa using upper⟩
    · intro ⟨sameRoot, valid, ⟨down, lower⟩, upper⟩
      cases down with
      | nil =>
        left
        exact ext_of_path sameRoot (by simpa using lower.symm) valid present
      | cons position down =>
        right
        rw [← lower, List.prefix_append_right_inj, List.cons_prefix_cons] at upper
        obtain ⟨rfl, upper⟩ := upper
        obtain ⟨child, known, _⟩ := get?_cons_eq_some.mp (valid.get?_below sameRoot present lower)
        rw [known]
        refine (ih (get?_concat present known)).mpr ⟨sameRoot, valid, ?_, ?_⟩
        · rw [← lower]
          simp
        · rw [← lower]
          simpa using upper

theorem mem_ancestorsAndSelf (node around : Node) :
    around ∈ node.ancestorsAndSelf ↔
      around.root = node.root ∧ around.Valid ∧ around.path <+: node.path := by
  rw [ancestorsAndSelf, List.mem_reverse, mem_trail (get?_nil node.root)]
  simp

/-- Going up, each node lies inside all later ones. -/
theorem pairwise_ancestorsAndSelf (node : Node) :
    node.ancestorsAndSelf.Pairwise fun inner outer => outer.path <+: inner.path := by
  rw [ancestorsAndSelf, List.pairwise_reverse]
  exact pairwise_trail node.root node.root [] node.path

end Node

namespace Tree

/-- A node that answers a lookup: it has the kind and the span, and every node that has both lies
around it. -/
structure Covers (root : Tree) (kind : Kind) (span : Span) (node : Node) : Prop where
  root_eq : node.root = root
  valid : node.Valid
  kind_eq : node.kind = kind
  span_eq : node.span = span
  nonempty : span.start < span.stop
  innermost : ∀ other : Node, other.root = root → other.Valid → other.kind = kind → other.span = span →
    other.path <+: node.path

private theorem path_of_span {node : Node} {span : Span} (valid : node.Valid) (same : node.span = span)
    (nonempty : span.start < span.stop) :
    span.start < node.root.width ∧ node.path <+: node.root.pathTo span.start := by
  have bound := offsetAt_add_width_le valid
  subst same
  simp only [Node.span, Node.offset] at nonempty ⊢
  have inside : node.root.offsetAt node.path + node.tree.leading.utf8ByteSize < node.root.width := by omega
  exact ⟨inside, (prefix_pathTo_iff valid inside).mpr (by omega)⟩

theorem covers_of_covering {root : Tree} {kind : Kind} {span : Span} {node : Node}
    (found : root.covering kind span = .ok node) : Covers root kind span node := by
  have inside : span.start < root.width := by
    apply Nat.lt_of_not_le
    intro outside
    rw [covering, findAt_eq_error outside] at found
    cases found
  obtain ⟨inner, located, sameRoot, samePath, valid⟩ := findAt_eq_ok inside
  rw [covering, located] at found
  simp only at found
  split at found
  next around search =>
    cases found
    obtain ⟨matching, front, behind, split, early⟩ := List.find?_eq_some_iff_append.mp search
    simp only [Bool.and_eq_true, decide_eq_true_eq] at matching
    have member : node ∈ inner.ancestorsAndSelf := List.mem_of_find?_eq_some search
    obtain ⟨nodeRoot, nodeValid, up⟩ := (Node.mem_ancestorsAndSelf inner node).mp member
    rw [sameRoot] at nodeRoot
    rw [samePath] at up
    have nonempty : span.start < span.stop := by
      have present : root.get? node.path = some node.tree := nodeRoot ▸ (show node.root.get? _ = _ from nodeValid)
      have bounds := (prefix_pathTo_iff present inside).mp up
      have stop : span.stop = root.offsetAt node.path + node.tree.width := by
        rw [← matching.2, ← nodeRoot]
        rfl
      omega
    refine ⟨nodeRoot, nodeValid, matching.1, matching.2, nonempty, ?_⟩
    intro other otherRoot otherValid otherKind otherSpan
    have way := (path_of_span otherValid otherSpan nonempty).2
    have present : other ∈ inner.ancestorsAndSelf :=
      (Node.mem_ancestorsAndSelf inner other).mpr
        ⟨otherRoot.trans sameRoot.symm, otherValid, by rw [samePath, ← otherRoot]; exact way⟩
    have order := Node.pairwise_ancestorsAndSelf inner
    rw [split] at present order
    -- A match in front of the found node would have been found first.
    rcases List.mem_append.mp present with before | here
    · have passed := early other before
      simp [otherKind, otherSpan] at passed
    · rcases List.mem_cons.mp here with rfl | later
      · exact List.prefix_rfl
      · exact (List.pairwise_cons.mp (List.pairwise_append.mp order).2.1).1 other later
  next => cases found

theorem Covers.unique {root : Tree} {kind : Kind} {span : Span} {first second : Node}
    (one : Covers root kind span first) (two : Covers root kind span second) : first = second := by
  have up := one.innermost second two.root_eq two.valid two.kind_eq two.span_eq
  have down := two.innermost first one.root_eq one.valid one.kind_eq one.span_eq
  exact Node.ext_of_path (one.root_eq.trans two.root_eq.symm) (down.eq_of_length_le up.length_le) one.valid two.valid

theorem exists_covering {root : Tree} {kind : Kind} {span : Span} {node : Node} (sameRoot : node.root = root)
    (valid : node.Valid) (sameKind : node.kind = kind) (sameSpan : node.span = span)
    (nonempty : span.start < span.stop) : ∃ found, root.covering kind span = .ok found := by
  obtain ⟨inside, way⟩ := path_of_span valid sameSpan nonempty
  rw [sameRoot] at inside way
  obtain ⟨inner, located, innerRoot, innerPath, _⟩ := findAt_eq_ok inside
  have member : node ∈ inner.ancestorsAndSelf :=
    (Node.mem_ancestorsAndSelf inner node).mpr ⟨sameRoot.trans innerRoot.symm, valid, by rwa [innerPath]⟩
  have matched : (inner.ancestorsAndSelf.find? fun around =>
      around.kind = kind && around.span = span).isSome :=
    List.find?_isSome.mpr ⟨node, member, by simp [sameKind, sameSpan]⟩
  obtain ⟨found, search⟩ := Option.isSome_iff_exists.mp matched
  exact ⟨found, by rw [covering, located]; simp only [search]⟩

/-- Looking up a kind and a span gives the innermost node that has both. -/
theorem covering_eq_ok_iff {root : Tree} {kind : Kind} {span : Span} {node : Node} :
    root.covering kind span = .ok node ↔ Covers root kind span node := by
  constructor
  · exact covers_of_covering
  · intro covers
    obtain ⟨found, search⟩ :=
      exists_covering covers.root_eq covers.valid covers.kind_eq covers.span_eq covers.nonempty
    rw [search, (covers_of_covering search).unique covers]

end Tree

end TreeLint
