import TreeLint.Proofs.Insertion

/-! The text around a new child. Every place of the old tree lies in front of the new text or behind it: in the
first case the text before the place is the same as ever, in the second the new text has come into it. -/

namespace TreeLint.Tree

theorem textBefore_append {tree found : Tree} {path : List Nat} (present : tree.get? path = some found) (below : List Nat) :
    tree.textBefore (path ++ below) = tree.textBefore path ++ found.textBefore below := by
  induction path generalizing tree with
  | nil =>
    rw [get?_nil] at present
    cases present
    simp
  | cons index path ih =>
    obtain ⟨child, known, rest⟩ := get?_cons_eq_some.mp present
    rw [List.cons_append, textBefore_cons known, textBefore_cons known, ih rest, String.append_assoc]

theorem textAfter_append {tree found : Tree} {path : List Nat} (present : tree.get? path = some found) (below : List Nat) :
    tree.textAfter (path ++ below) = found.textAfter below ++ tree.textAfter path := by
  induction path generalizing tree with
  | nil =>
    rw [get?_nil] at present
    cases present
    simp
  | cons index path ih =>
    obtain ⟨child, known, rest⟩ := get?_cons_eq_some.mp present
    rw [List.cons_append, textAfter_cons known, textAfter_cons known, ih rest, String.append_assoc]

theorem texts_take_split {trees : List Tree} {tree : Tree} {index stop : Nat} (known : trees[index]? = some tree)
    (before : index < stop) :
    texts (trees.take stop) = texts (trees.take index) ++ tree.text ++ texts ((trees.take stop).drop (index + 1)) := by
  have inside : (trees.take stop)[index]? = some tree := by rw [List.getElem?_take_of_lt before, known]
  conv => lhs; rw [split_at inside]
  rw [List.take_take, Nat.min_eq_left (Nat.le_of_lt before), texts_append, texts, String.append_assoc]

theorem drop_eq_cons {trees : List Tree} {tree : Tree} {index : Nat} (known : trees[index]? = some tree) :
    trees.drop index = tree :: trees.drop (index + 1) := by
  obtain ⟨inside, rfl⟩ := List.getElem?_eq_some_iff.mp known
  exact List.drop_eq_getElem_cons inside

section
variable {tree body close : Tree} {place : List Nat} {index : Nat} (child : Tree)

theorem text_insert (shape : tree.WellFormed) (present : tree.get? place = some body)
    (known : body.children[index]? = some close) :
    (tree.replaceAt place (body.insertChild index child)).text =
      tree.textBefore (place ++ [index]) ++ (child.text ++ (close.text ++ tree.textAfter (place ++ [index]))) := by
  have inside := Nat.le_of_lt (List.getElem?_eq_some_iff.mp known).1
  have inner := inner_of_child known (shape.get? present)
  have whole : (body.insertChild index child).text = texts (body.insertChild index child).children := by
    simp [insertChild, Tree.text, inner]
  rw [text_replaceAt shape present, whole, children_insertChild_of_le inside, texts_append, texts, drop_eq_cons known, texts,
    textBefore_append present, textAfter_append present, textBefore_cons known, textAfter_cons known]
  simp only [textBefore_nil, textAfter_nil, String.append_empty, String.empty_append, String.append_assoc]

/-- Children in front of the new one have the same text before them, those behind it have the new text there too. -/
private theorem texts_pushed {position : Nat} (known : body.children[index]? = some close) {piece : Tree}
    (there : body.children[position]? = some piece) (other : position ≠ index) :
    (∃ gap, texts (body.children.take index) = texts (body.children.take position) ++ (piece.text ++ gap) ∧
        texts ((body.insertChild index child).children.take (pushed index position)) = texts (body.children.take position)) ∨
      ∃ mid, texts (body.children.take position) = texts (body.children.take index) ++ (close.text ++ mid) ∧
        texts ((body.insertChild index child).children.take (pushed index position)) =
          texts (body.children.take index) ++ (child.text ++ (close.text ++ mid)) := by
  have inside := (List.getElem?_eq_some_iff.mp known).1
  have long : (body.children.take index).length = index := by
    rw [List.length_take]
    omega
  rw [children_insertChild_of_le (Nat.le_of_lt inside), pushed]
  rcases Nat.lt_or_gt_of_ne other with before | behind
  · left
    rw [if_pos before, List.take_append_of_le_length (by omega), List.take_take, Nat.min_eq_left (Nat.le_of_lt before),
      texts_take_split there before, String.append_assoc]
    exact ⟨_, rfl, rfl⟩
  · right
    have count : position + 1 - index = position - index + 1 := by omega
    have later : texts ((body.children.drop index).take (position - index)) =
        close.text ++ texts ((body.children.take position).drop (index + 1)) := by
      rw [← List.drop_take, drop_eq_cons (by rw [List.getElem?_take_of_lt behind, known]), texts]
    rw [if_neg (by omega), List.take_append, List.take_take, Nat.min_eq_right (by omega), long, count,
      List.take_succ_cons, texts_append, texts, later, texts_take_split known behind, String.append_assoc]
    exact ⟨_, rfl, rfl⟩

/-- A place under another child than the one that has changed. -/
private theorem textBefore_sibling {step position : Nat} {path : List Nat} {middle piece found : Tree}
    (shape : tree.WellFormed) (here : tree.children[step]? = some middle) (inside : middle.get? place = some body)
    (known : body.children[index]? = some close) (standing : tree.children[position]? = some piece)
    (rest : piece.get? path = some found) (other : step ≠ position) :
    (∃ gap, tree.textBefore (step :: (place ++ [index])) = tree.textBefore (position :: path) ++ (found.text ++ gap) ∧
        (tree.replaceAt (step :: place) (body.insertChild index child)).textBefore (position :: path) =
          tree.textBefore (position :: path)) ∨
      ∃ mid, tree.textBefore (position :: path) = tree.textBefore (step :: (place ++ [index])) ++ (close.text ++ mid) ∧
        (tree.replaceAt (step :: place) (body.insertChild index child)).textBefore (position :: path) =
          tree.textBefore (step :: (place ++ [index])) ++ (child.text ++ (close.text ++ mid)) := by
  have unchanged : (tree.replaceAt (step :: place) (body.insertChild index child)).children[position]? = some piece := by
    rw [children_replaceAt_cons here, List.getElem?_set_ne other, standing]
  rw [textBefore_cons here, textBefore_cons standing, textBefore_cons unchanged, children_replaceAt_cons here]
  rcases Nat.lt_or_gt_of_ne other with behind | before
  · right
    have middleShape := shape.child (List.mem_of_getElem? here)
    have moved : (tree.children.set step (middle.replaceAt place (body.insertChild index child)))[step]? =
        some (middle.replaceAt place (body.insertChild index child)) :=
      List.getElem?_set_self (List.getElem?_eq_some_iff.mp here).1
    have later : ((tree.children.set step (middle.replaceAt place (body.insertChild index child))).take
        position).drop (step + 1) = (tree.children.take position).drop (step + 1) := by
      rw [List.take_set, List.drop_set_of_lt (Nat.lt_succ_self step)]
    refine ⟨middle.textAfter (place ++ [index]) ++ texts ((tree.children.take position).drop (step + 1)) ++
      piece.textBefore path, ?_, ?_⟩
    · rw [texts_take_split here behind, text_around middleShape (get?_concat inside known)]
      simp only [String.append_assoc]
    · rw [texts_take_split moved behind, later, List.take_set_of_le (Nat.le_refl step),
        text_insert child middleShape inside known]
      simp only [String.append_assoc]
  · left
    rw [List.take_set_of_le (Nat.le_of_lt before), texts_take_split standing before,
      text_around (shape.child (List.mem_of_getElem? standing)) rest]
    refine ⟨piece.textAfter path ++ (texts ((tree.children.take step).drop (position + 1)) ++
      middle.textBefore (place ++ [index])), ?_, rfl⟩
    simp only [String.append_assoc]

/-- A place that is neither around the new child nor in the one behind it. -/
theorem textBefore_shifted {path : List Nat} {found : Tree} (shape : tree.WellFormed) (present : tree.get? place = some body)
    (known : body.children[index]? = some close) (there : tree.get? path = some found) (off : ¬ path <+: place)
    (beside : ¬ place ++ [index] <+: path) :
    (∃ gap, tree.textBefore (place ++ [index]) = tree.textBefore path ++ (found.text ++ gap) ∧
        (tree.replaceAt place (body.insertChild index child)).textBefore (shifted place index path) = tree.textBefore path) ∨
      ∃ mid, tree.textBefore path = tree.textBefore (place ++ [index]) ++ (close.text ++ mid) ∧
        (tree.replaceAt place (body.insertChild index child)).textBefore (shifted place index path) =
          tree.textBefore (place ++ [index]) ++ (child.text ++ (close.text ++ mid)) := by
  induction place generalizing tree path with
  | nil =>
    cases path with
    | nil => exact absurd List.nil_prefix off
    | cons position path =>
      rw [get?_nil] at present
      cases present
      obtain ⟨piece, standing, rest⟩ := get?_cons_eq_some.mp there
      have bound := Nat.le_of_lt (List.getElem?_eq_some_iff.mp known).1
      have other : position ≠ index := by
        rintro rfl
        exact beside (by simp)
      have still : (body.insertChild index child).children[pushed index position]? = some piece := by
        rw [getElem?_insertChild bound, standing]
      rw [List.nil_append, textBefore_cons known, textBefore_cons standing, replaceAt_nil, shifted, textBefore_cons still,
        textBefore_nil, String.append_empty]
      rcases texts_pushed child known standing other with ⟨gap, before, same⟩ | ⟨mid, behind, same⟩
      · left
        rw [before, same, text_around (shape.child (List.mem_of_getElem? standing)) rest]
        exact ⟨piece.textAfter path ++ gap, by simp only [String.append_assoc], rfl⟩
      · right
        rw [behind, same]
        exact ⟨mid ++ piece.textBefore path, by simp only [String.append_assoc], by simp only [String.append_assoc]⟩
  | cons step place ih =>
    cases path with
    | nil => exact absurd List.nil_prefix off
    | cons position path =>
      obtain ⟨middle, here, inside⟩ := get?_cons_eq_some.mp present
      obtain ⟨piece, standing, rest⟩ := get?_cons_eq_some.mp there
      rw [List.cons_append, shifted]
      by_cases same : step = position
      · subst position
        obtain rfl : middle = piece := Option.some.inj (here.symm.trans standing)
        have changed : (tree.replaceAt (step :: place) (body.insertChild index child)).children[step]? =
            some (middle.replaceAt place (body.insertChild index child)) := by
          rw [children_replaceAt_cons here, List.getElem?_set_self (List.getElem?_eq_some_iff.mp here).1]
        have front : (tree.replaceAt (step :: place) (body.insertChild index child)).children.take step =
            tree.children.take step := by
          rw [children_replaceAt_cons here, List.take_set_of_le (Nat.le_refl step)]
        rw [if_pos rfl, textBefore_cons changed, front, textBefore_cons here, textBefore_cons here]
        rcases ih (shape.child (List.mem_of_getElem? here)) inside rest
          (fun above => off (List.cons_prefix_cons.mpr ⟨rfl, above⟩))
          (fun below => beside (List.cons_prefix_cons.mpr ⟨rfl, below⟩)) with
          ⟨gap, before, still⟩ | ⟨mid, behind, still⟩
        · exact .inl ⟨gap, by rw [before, String.append_assoc], by rw [still]⟩
        · exact .inr ⟨mid, by rw [behind, String.append_assoc], by rw [still, String.append_assoc]⟩
      · rw [if_neg same]
        exact textBefore_sibling child shape here inside known standing rest same

theorem textBefore_above {path below : List Nat} {found : Tree} (replacement : Tree) (there : tree.get? path = some found) :
    (tree.replaceAt (path ++ below) replacement).textBefore path = tree.textBefore path := by
  induction path generalizing tree with
  | nil => simp
  | cons step path ih =>
    obtain ⟨middle, here, rest⟩ := get?_cons_eq_some.mp there
    have changed : (tree.replaceAt (step :: (path ++ below)) replacement).children[step]? =
        some (middle.replaceAt (path ++ below) replacement) := by
      rw [children_replaceAt_cons here, List.getElem?_set_self (List.getElem?_eq_some_iff.mp here).1]
    rw [List.cons_append, textBefore_cons changed, textBefore_cons here, ih rest, children_replaceAt_cons here,
      List.take_set_of_le (Nat.le_refl step)]

end

end TreeLint.Tree
