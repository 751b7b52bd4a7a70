import TreeLint.Proofs.Places

/-! The trivia in front of a tree. It is a piece of the text at its very start, and giving a tree
other trivia exchanges that piece and nothing else. -/

namespace TreeLint.Tree

theorem firstTokenOf?_eq_none {trees : List Tree} :
    firstTokenOf? trees = none ↔ ∀ tree ∈ trees, tree.firstToken? = none := by
  induction trees with
  | nil => simp [firstTokenOf?]
  | cons tree rest ih => simp [firstTokenOf?, ih]

/-- A tree without tokens has no text. -/
theorem text_of_no_token {tree : Tree} (shape : tree.WellFormed) (bare : tree.firstToken? = none) :
    tree.text = "" := by
  induction tree with
  | token kind leading text =>
    simp only [WellFormed] at shape
    simp [firstToken?, shape] at bare
  | node kind children ih =>
    obtain ⟨inner, below⟩ := (wellFormed_node kind children).mp shape
    simp only [firstToken?, inner, Bool.false_eq_true, if_false] at bare
    have each := firstTokenOf?_eq_none.mp bare
    have empty : ∀ trees : List Tree, (∀ tree ∈ trees, tree.text = "") → texts trees = "" := by
      intro trees all
      induction trees with
      | nil => rfl
      | cons tree rest step =>
        rw [texts, all tree (by simp), step (fun other member => all other (by simp [member]))]
        rfl
    simp only [Tree.text, inner, Bool.false_eq_true, if_false]
    exact empty children (fun child member => ih child member (below child member) (each child member))

private theorem texts_withLeadingFirst {trees : List Tree} {first : Tree} (shape : ∀ tree ∈ trees, tree.WellFormed)
    (present : firstTokenOf? trees = some first)
    (each : ∀ tree ∈ trees, ∀ start, tree.firstToken? = some start →
      ∃ rest, tree.text = start.ownLeading ++ rest ∧ ∀ trivia, (tree.withLeading trivia).text = trivia ++ rest) :
    ∃ rest, texts trees = first.ownLeading ++ rest ∧
      ∀ trivia, texts (withLeadingFirst trivia trees) = trivia ++ rest := by
  induction trees with
  | nil => simp [firstTokenOf?] at present
  | cons tree others ih =>
    rw [firstTokenOf?] at present
    cases start : tree.firstToken? with
    | some held =>
      rw [start, Option.some_or] at present
      cases present
      obtain ⟨rest, whole, changed⟩ := each tree (by simp) first start
      refine ⟨rest ++ texts others, ?_, ?_⟩
      · rw [texts, whole, String.append_assoc]
      · intro trivia
        simp only [withLeadingFirst, start, Option.isSome_some, if_true, texts, changed, String.append_assoc]
    | none =>
      rw [start, Option.none_or] at present
      obtain ⟨rest, whole, changed⟩ := ih (fun other member => shape other (by simp [member])) present
        (fun other member => each other (by simp [member]))
      have empty := text_of_no_token (shape tree (by simp)) start
      refine ⟨rest, ?_, ?_⟩
      · rw [texts, empty, whole, String.empty_append]
      · intro trivia
        simp [withLeadingFirst, start, texts, empty, changed]

private theorem text_from_first {tree first : Tree} (shape : tree.WellFormed)
    (present : tree.firstToken? = some first) :
    ∃ rest, tree.text = first.ownLeading ++ rest ∧ ∀ trivia, (tree.withLeading trivia).text = trivia ++ rest := by
  induction tree generalizing first with
  | token kind leading text =>
    simp only [WellFormed] at shape
    simp only [firstToken?, shape, if_true, Option.some.injEq] at present
    subst present
    exact ⟨text, by simp [Tree.text, shape, ownLeading], fun trivia => by simp [withLeading, Tree.text, shape]⟩
  | node kind children ih =>
    obtain ⟨inner, below⟩ := (wellFormed_node kind children).mp shape
    simp only [firstToken?, inner, Bool.false_eq_true, if_false] at present
    obtain ⟨rest, whole, changed⟩ := texts_withLeadingFirst below present
      (fun child member start known => ih child member (below child member) known)
    refine ⟨rest, ?_, ?_⟩
    · simpa only [Tree.text, inner, Bool.false_eq_true, if_false] using whole
    · intro trivia
      simpa only [withLeading, Tree.text, inner, Bool.false_eq_true, if_false] using changed trivia

private theorem trimmed_of_split {tree : Tree} {rest : String} (split : tree.text = tree.leading ++ rest) :
    tree.trimmed = rest := by
  rw [trimmed, split, String.toList_append]
  apply String.toList_inj.mp
  rw [String.toList_ofList, ← String.length_toList, List.drop_left]

theorem text_eq_leading_append {tree : Tree} (shape : tree.WellFormed) :
    tree.text = tree.leading ++ tree.trimmed := by
  cases present : tree.firstToken? with
  | none =>
    have split : tree.text = tree.leading ++ "" := by
      rw [text_of_no_token shape present]
      simp [leading, present]
    rw [trimmed_of_split split]
    exact split
  | some first =>
    obtain ⟨rest, whole, _⟩ := text_from_first shape present
    have split : tree.text = tree.leading ++ rest := by
      simpa [leading, present] using whole
    rw [trimmed_of_split split]
    exact split

theorem text_withLeading {tree : Tree} (shape : tree.WellFormed) (present : tree.firstToken?.isSome)
    (trivia : String) : (tree.withLeading trivia).text = trivia ++ tree.trimmed := by
  obtain ⟨first, known⟩ := Option.isSome_iff_exists.mp present
  obtain ⟨rest, whole, changed⟩ := text_from_first shape known
  have split : tree.text = tree.leading ++ rest := by
    simpa [leading, known] using whole
  rw [changed, trimmed_of_split split]

theorem mem_withLeadingFirst {trivia : String} {trees : List Tree} {tree : Tree}
    (member : tree ∈ withLeadingFirst trivia trees) :
    tree ∈ trees ∨ ∃ old ∈ trees, tree = old.withLeading trivia := by
  induction trees with
  | nil => simp [withLeadingFirst] at member
  | cons head rest ih =>
    rw [withLeadingFirst] at member
    split at member
    · rcases List.mem_cons.mp member with rfl | later
      · exact .inr ⟨head, by simp, rfl⟩
      · exact .inl (by simp [later])
    · rcases List.mem_cons.mp member with rfl | later
      · exact .inl (by simp)
      · rcases ih later with old | ⟨old, known, same⟩
        · exact .inl (by simp [old])
        · exact .inr ⟨old, by simp [known], same⟩

theorem WellFormed.withLeading {tree : Tree} (shape : tree.WellFormed) (trivia : String) :
    (tree.withLeading trivia).WellFormed := by
  induction tree with
  | token kind leading text =>
    simp only [WellFormed] at shape
    simp [Tree.withLeading, shape, WellFormed]
  | node kind children ih =>
    obtain ⟨inner, below⟩ := (wellFormed_node kind children).mp shape
    simp only [Tree.withLeading, inner, Bool.false_eq_true, if_false]
    refine (wellFormed_node _ _).mpr ⟨inner, ?_⟩
    intro child member
    rcases mem_withLeadingFirst member with old | ⟨old, known, rfl⟩
    · exact below child old
    · exact ih old known (below old known)

theorem leading_le_width {tree : Tree} (shape : tree.WellFormed) : tree.leading.utf8ByteSize ≤ tree.width := by
  rw [width_eq_utf8ByteSize shape, text_eq_leading_append shape, String.utf8ByteSize_append]
  omega

theorem no_token_below {tree found : Tree} {path : List Nat} (present : tree.get? path = some found)
    (bare : tree.firstToken? = none) : found.firstToken? = none := by
  induction path generalizing tree with
  | nil => rw [get?_nil] at present; cases present; exact bare
  | cons index path ih =>
    obtain ⟨child, known, rest⟩ := get?_cons_eq_some.mp present
    apply ih rest
    cases tree with
    | token kind leading text => cases known
    | node kind children =>
      rw [firstToken?] at bare
      split at bare
      · cases bare
      · exact firstTokenOf?_eq_none.mp bare child (List.mem_of_getElem? known)

/-- The trivia of a node is that of its first child with a token, so it fits in front of the trivia
of any child with a token. -/
private theorem leading_le_widths_take {kind : Kind} {trees : List Tree} {child : Tree} {index : Nat}
    (inner : kind.isToken = false) (shape : ∀ tree ∈ trees, tree.WellFormed)
    (known : trees[index]? = some child) (full : child.firstToken?.isSome) :
    (node kind trees).leading.utf8ByteSize ≤ widths (trees.take index) + child.leading.utf8ByteSize := by
  induction trees generalizing index with
  | nil => cases known
  | cons head others ih =>
    cases start : head.firstToken? with
    | some first =>
      have same : (node kind (head :: others)).leading = head.leading := by
        simp [leading, firstToken?, inner, firstTokenOf?, start]
      rw [same]
      cases index with
      | zero => cases known; omega
      | succ index =>
        have fits := leading_le_width (shape head (by simp))
        rw [List.take_succ_cons, widths]
        omega
    | none =>
      have same : (node kind (head :: others)).leading = (node kind others).leading := by
        simp [leading, firstToken?, inner, firstTokenOf?, start]
      cases index with
      | zero => cases known; rw [start] at full; cases full
      | succ index =>
        have later := ih (fun tree member => shape tree (by simp [member])) (by simpa using known)
        rw [same, List.take_succ_cons, widths]
        omega

/-- A place inside a tree has its trivia behind that of the tree, or shares it. -/
theorem leading_le_offsetAt {tree found : Tree} {path : List Nat} (shape : tree.WellFormed)
    (present : tree.get? path = some found) (full : found.firstToken?.isSome) :
    tree.leading.utf8ByteSize ≤ tree.offsetAt path + found.leading.utf8ByteSize := by
  induction path generalizing tree with
  | nil => rw [get?_nil] at present; cases present; simp
  | cons index path ih =>
    obtain ⟨child, known, rest⟩ := get?_cons_eq_some.mp present
    have below := ih (shape.child (List.mem_of_getElem? known)) rest
    have childFull : child.firstToken?.isSome := by
      cases bare : child.firstToken? with
      | some first => rfl
      | none => rw [no_token_below rest bare] at full; cases full
    rw [offsetAt_cons known]
    cases tree with
    | token kind leading text => cases known
    | node kind children =>
      obtain ⟨inner, each⟩ := (wellFormed_node kind children).mp shape
      have outer := leading_le_widths_take inner each known childFull
      simp only [children_node]
      omega

theorem firstTokenOf?_append (first second : List Tree) :
    firstTokenOf? (first ++ second) = (firstTokenOf? first).or (firstTokenOf? second) := by
  induction first with
  | nil => simp [firstTokenOf?]
  | cons tree rest ih => rw [List.cons_append, firstTokenOf?, ih, firstTokenOf?, Option.or_assoc]

theorem withLeadingFirst_append (trivia : String) (first second : List Tree) :
    withLeadingFirst trivia (first ++ second) =
      if (firstTokenOf? first).isSome then withLeadingFirst trivia first ++ second
      else first ++ withLeadingFirst trivia second := by
  induction first with
  | nil => rfl
  | cons tree rest ih =>
    rw [List.cons_append, withLeadingFirst, ih, withLeadingFirst, firstTokenOf?]
    cases start : tree.firstToken? with
    | some token => rfl
    | none =>
      rw [Option.none_or]
      simp only [Option.isSome_none, Bool.false_eq_true, if_false]
      split <;> rfl

theorem firstToken?_node {kind : Kind} (inner : kind.isToken = false) (children : List Tree) :
    (node kind children).firstToken? = firstTokenOf? children := by
  simp [firstToken?, inner]

theorem firstToken?_inner {tree : Tree} (inner : tree.kind.isToken = false) : tree.firstToken? = firstTokenOf? tree.children := by
  cases tree with
  | token kind leading text =>
    rw [kind_token] at inner
    simp [firstToken?, inner, firstTokenOf?]
  | node kind children => exact firstToken?_node inner children

theorem firstToken?_of_isToken {tree : Tree} (isToken : tree.kind.isToken) : tree.firstToken? = some tree := by
  cases tree <;> exact if_pos isToken

theorem leading_of_firstToken? {tree token : Tree} (start : tree.firstToken? = some token) :
    tree.leading = token.ownLeading := by
  rw [leading, start]

private theorem withLeadingFirst_own {trees : List Tree} {token : Tree} (start : firstTokenOf? trees = some token)
    (each : ∀ tree ∈ trees, ∀ token, tree.firstToken? = some token → tree.withLeading token.ownLeading = tree) :
    withLeadingFirst token.ownLeading trees = trees := by
  induction trees with
  | nil => rfl
  | cons tree rest ih =>
    rw [firstTokenOf?] at start
    rw [withLeadingFirst]
    cases first : tree.firstToken? with
    | some held =>
      rw [first, Option.some_or, Option.some.injEq] at start
      simp [each tree (by simp) token (start ▸ first)]
    | none =>
      rw [first, Option.none_or] at start
      simp [ih start fun other member => each other (by simp [member])]

theorem withLeading_own {tree token : Tree} (shape : tree.WellFormed) (start : tree.firstToken? = some token) :
    tree.withLeading token.ownLeading = tree := by
  induction tree generalizing token with
  | token kind leading text =>
    simp only [WellFormed] at shape
    simp only [firstToken?, shape, if_true, Option.some.injEq] at start
    simp [withLeading, shape, ← start, ownLeading]
  | node kind children ih =>
    obtain ⟨inner, below⟩ := (wellFormed_node kind children).mp shape
    rw [firstToken?_node inner] at start
    rw [withLeading, inner, withLeadingFirst_own start fun child member _ first => ih child member (below child member) first]
    rfl

theorem withLeadingFirst_of_start {trees : List Tree} {token : Tree} (shape : ∀ tree ∈ trees, tree.WellFormed)
    (start : firstTokenOf? trees = some token) : withLeadingFirst token.ownLeading trees = trees :=
  withLeadingFirst_own start fun tree member _ first => withLeading_own (shape tree member) first

end TreeLint.Tree
