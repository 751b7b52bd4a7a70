import TreeLint.Text.Split

/-! Splitting at a mark. The pieces hold no mark, and a mark more is a cut more. -/

namespace TreeLint.Text

variable {α : Type} [DecidableEq α] {mark : α}

theorem splitItems_ne_nil (mark : α) (items : List α) : splitItems mark items ≠ [] := by
  cases items with
  | nil => exact List.cons_ne_nil _ _
  | cons item rest =>
    rw [splitItems]
    split
    · exact List.cons_ne_nil _ _
    · split <;> exact List.cons_ne_nil _ _

theorem splitItems_cons_of_ne {item : α} (other : item ≠ mark) (rest : List α) :
    ∃ piece others, splitItems mark rest = piece :: others ∧
      splitItems mark (item :: rest) = (item :: piece) :: others := by
  obtain ⟨piece, others, pieces⟩ := List.exists_cons_of_ne_nil (splitItems_ne_nil mark rest)
  exact ⟨piece, others, pieces, by rw [splitItems, if_neg other, pieces]⟩

theorem splitItems_append (before after : List α) :
    splitItems mark (before ++ mark :: after) = splitItems mark before ++ splitItems mark after := by
  induction before with
  | nil => exact if_pos rfl
  | cons item rest ih =>
    by_cases same : item = mark
    · rw [List.cons_append, splitItems, if_pos same, ih, splitItems, if_pos same, List.cons_append]
    · obtain ⟨piece, others, pieces, here⟩ := splitItems_cons_of_ne same rest
      rw [List.cons_append, splitItems, if_neg same, ih, here, pieces]
      rfl

theorem splitItems_of_not_mem {items : List α} (whole : mark ∉ items) : splitItems mark items = [items] := by
  induction items with
  | nil => rfl
  | cons item rest ih =>
    rw [List.mem_cons, not_or] at whole
    obtain ⟨other, absent⟩ := whole
    rw [splitItems, if_neg (Ne.symm other), ih absent]

theorem not_mem_of_mem_splitItems {items piece : List α} (member : piece ∈ splitItems mark items) : mark ∉ piece := by
  induction items generalizing piece with
  | nil =>
    rw [List.mem_singleton.mp member]
    exact List.not_mem_nil
  | cons item rest ih =>
    by_cases same : item = mark
    · rw [splitItems, if_pos same] at member
      rcases List.mem_cons.mp member with rfl | later
      · exact List.not_mem_nil
      · exact ih later
    · obtain ⟨first, others, pieces, here⟩ := splitItems_cons_of_ne same rest
      rw [here] at member
      rcases List.mem_cons.mp member with rfl | later
      · rw [List.mem_cons, not_or]
        exact ⟨Ne.symm same, ih (by simp [pieces])⟩
      · exact ih (by simp [pieces, later])

theorem splitItems_eq_nil {items : List α} (empty : splitItems mark items = [[]]) : items = [] := by
  cases items with
  | nil => rfl
  | cons item rest =>
    by_cases same : item = mark
    · rw [splitItems, if_pos same] at empty
      exact absurd (List.cons.inj empty).2 (splitItems_ne_nil mark rest)
    · obtain ⟨piece, others, _, here⟩ := splitItems_cons_of_ne same rest
      rw [here] at empty
      cases empty

end TreeLint.Text
