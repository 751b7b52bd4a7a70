import TreeLint.Analysis.Visitor

/-! Visits. A visitor goes through a tree node by node and rule by rule, and hears of the same defects as `detect`, in the
same order. -/

namespace TreeLint

namespace Visitor

def recordAll (visitor : Visitor) (defects : List Defect) : Visitor :=
  { visitor with
    defects := visitor.defects ++ defects
    findings := visitor.findings ++ defects.map (.ofDefect visitor.file visitor.index) }

theorem recordAll_nil (visitor : Visitor) : visitor.recordAll [] = visitor := by
  simp [recordAll]

theorem recordAll_append (visitor : Visitor) (first second : List Defect) :
    visitor.recordAll (first ++ second) = (visitor.recordAll first).recordAll second := by
  simp [recordAll]

/-- Where each step of a visitor notes down some defects, all of them note down these defects in order. -/
private theorem foldl_eq_recordAll {α : Type} {rules : List Rule} {step : Visitor → α → Visitor}
    {heard : α → List Defect}
    (each : ∀ visitor item, visitor.rules = rules → step visitor item = visitor.recordAll (heard item))
    (items : List α) (visitor : Visitor) (same : visitor.rules = rules) :
    items.foldl step visitor = visitor.recordAll (items.flatMap heard) := by
  induction items generalizing visitor with
  | nil => exact visitor.recordAll_nil.symm
  | cons item rest ih =>
    rw [List.foldl_cons, List.flatMap_cons, recordAll_append, each visitor item same]
    exact ih (visitor.recordAll (heard item)) same

private def answer (node : Node) (rule : Rule) : List Defect :=
  if rule.anchorKind = node.kind then (rule.check node).toList else []

private theorem ask_eq (visitor : Visitor) (node : Node) (rule : Rule) :
    visitor.ask node rule = visitor.recordAll (answer node rule) := by
  rw [ask, answer]
  split
  · cases rule.check node with
    | none => exact visitor.recordAll_nil.symm
    | some defect => rfl
  · exact visitor.recordAll_nil.symm

private theorem flatMap_answer (rules : List Rule) (node : Node) : rules.flatMap (answer node) = defectsAt rules node := by
  induction rules with
  | nil => rfl
  | cons rule rest ih =>
    rw [List.flatMap_cons, ih, answer, defectsAt, defectsAt]
    by_cases asked : rule.anchorKind = node.kind
    · cases known : rule.check node <;> simp [asked, known]
    · simp [asked]

theorem visit_eq (visitor : Visitor) (node : Node) :
    visitor.visit node = visitor.recordAll (defectsAt visitor.rules node) := by
  rw [← flatMap_answer]
  exact foldl_eq_recordAll (fun visitor rule _ => visitor.ask_eq node rule) visitor.rules visitor rfl

theorem visitTree_eq (visitor : Visitor) (tree : Tree) :
    visitor.visitTree tree = visitor.recordAll (detect visitor.rules tree) := by
  refine foldl_eq_recordAll ?_ tree.asNode.selfAndDescendants visitor rfl
  intro visiting node same
  rw [visit_eq, same]

end Visitor

theorem findings_eq (rules : List Rule) (file : String) (tree : Tree) :
    findings rules file tree = (detect rules tree).map (.ofDefect file (.ofText tree.text)) := by
  rw [findings, Visitor.visitTree_eq]
  exact List.nil_append _

end TreeLint
