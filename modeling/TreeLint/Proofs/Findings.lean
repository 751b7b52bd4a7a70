import TreeLint.Proofs.Suppression

/-! What an analysis reports. A visitor hears of the same defects as `detect`, and what is left of its findings on lines
without a suppression comment are the findings of exactly those defects that a fixing run would have left over. -/

namespace TreeLint

open TreeLint.Tree

def Node.startLine (node : Node) : String :=
  String.ofList (Text.lineAround node.textBefore.toList (node.text ++ node.root.textAfter node.path).toList)

theorem unsuppressed_eq {tree : Tree} {defect : Defect} (shape : tree.WellFormed) (held : tree.Holds defect.anchor) :
    unsuppressed tree defect = !isSuppressed defect.anchor.startLine := by
  have start : defect.span.start = defect.anchor.textBefore.utf8ByteSize := Node.start_span shape held
  have whole : tree.text = defect.anchor.textBefore ++ (defect.anchor.text ++ tree.textAfter defect.anchor.path) := by
    rw [text_around shape held.present, text_eq_leading_append (shape.get? held.present), Node.textBefore, held.root_eq]
    simp only [String.append_assoc, Node.text]
  have silent : unsuppressed tree defect = false ↔ isSuppressed defect.anchor.startLine = true := by
    rw [unsuppressed_eq_false_iff whole start, ← Text.isSuppressed_iff, Node.startLine, held.root_eq]
  cases shown : isSuppressed defect.anchor.startLine with
  | true => exact silent.mpr shown
  | false =>
    rw [Bool.not_false, ← Bool.not_eq_false, silent, shown]
    exact Bool.false_ne_true

theorem holds_anchor {rules : List Rule} {tree : Tree} {defect : Defect} (reported : defect ∈ detect rules tree) :
    tree.Holds defect.anchor := by
  rcases detect_cases reported with ⟨_, node, name, negated, rfl⟩ | ⟨node, receiver, unconverted, rfl⟩
  · exact ⟨negated.root_eq, negated.valid⟩
  · exact ⟨unconverted.root_eq, unconverted.valid⟩

theorem Options.wellFormed_fixed (options : Options) {tree : Tree} (shape : tree.WellFormed) :
    (options.fixed tree).1.WellFormed := by
  rw [fixed]
  split
  · exact FixState.rounds_induction (motive := fun state => state.tree.WellFormed)
      (fun _ _ sound candidate => FixState.wellFormed_attempt sound candidate) shape maxRounds
  · exact shape

/-- Dropping findings by their lines is dropping defects by the places where they start. -/
theorem filter_findings (rules : List Rule) (file : String) (tree : Tree) :
    ((findings rules file tree).filter fun finding => !(suppressedLines tree.text).contains finding.line) =
      ((detect rules tree).filter (unsuppressed tree)).map (.ofDefect file (.ofText tree.text)) := by
  rw [findings_eq, List.filter_map]
  rfl

/-- An analysis reports the defects of the final tree that start on a line without a suppression comment, one finding
each and in order. They are what a visitor notes down, who hears of all defects of that tree. -/
theorem analyze_findings (options : Options) (file source : String) (concrete : Concrete) :
    let tree := concrete.toTree source
    let final := (options.fixed tree).1
    let visitor := (Visitor.start options.rules file final.text).visitTree final
    let outcome := fixAllKept options.rules unsuppressed tree
    (options.analyze file source concrete).unwritten.findings =
        (visitor.findings.filter fun finding => !(suppressedLines final.text).contains finding.line) ∧
      (options.analyze file source concrete).unwritten.findings =
        ((detect options.rules final).filter fun defect => !isSuppressed defect.anchor.startLine).map
          (.ofDefect file (.ofText final.text)) ∧
      visitor.defects = detect options.rules final ∧
      (Options.analyze { options with fix := true } file source concrete).unwritten.findings =
        outcome.remaining.map (.ofDefect file (.ofText outcome.tree.text)) := by
  intro tree final visitor outcome
  have visited : visitor = (Visitor.start options.rules file final.text).recordAll (detect options.rules final) :=
    Visitor.visitTree_eq _ final
  have shape : final.WellFormed := options.wellFormed_fixed (Concrete.wellFormed_toTree source concrete)
  have lines : (detect options.rules final).filter (unsuppressed final) =
      (detect options.rules final).filter fun defect => !isSuppressed defect.anchor.startLine :=
    List.filter_congr fun defect reported => unsuppressed_eq shape (holds_anchor reported)
  refine ⟨rfl, ?_, ?_, ?_⟩
  · rw [← lines]
    exact filter_findings options.rules file final
  · rw [visited]
    rfl
  · exact filter_findings options.rules file outcome.tree

end TreeLint
