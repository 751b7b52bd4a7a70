import TreeLint.Proofs.ClassLayout
import TreeLint.Proofs.Lines
import TreeLint.Proofs.Lossless
import TreeLint.Proofs.Visits

/-! Suppressed declarations during a run. A new method can push a suppression comment off the line of the declaration
that it is meant for, and then the declaration is renamed in a later round. It cannot where classes are laid out as in
`Tree.LaidOut`: there the line of a declaration keeps its comment through every round. -/

namespace TreeLint

open TreeLint.Tree

def Node.textBefore (node : Node) : String :=
  node.root.textBefore node.path ++ node.tree.leading

theorem Node.start_span {tree : Tree} {node : Node} (shape : tree.WellFormed) (held : tree.Holds node) :
    node.span.start = node.textBefore.utf8ByteSize := by
  obtain rfl := held.root_eq
  rw [Node.textBefore, String.utf8ByteSize_append, size_textBefore shape held.present]
  rfl

namespace Tree

theorem leading_of_head {tree first : Tree} (inner : tree.kind.isToken = false) (head : tree.children[0]? = some first)
    (isToken : first.kind.isToken) : tree.leading = first.leading := by
  have start := firstToken?_of_isToken isToken
  have whole : tree.firstToken? = some first := by
    rw [firstToken?_inner inner, split_at head, List.take_zero, List.nil_append, firstTokenOf?, start, Option.some_or]
  rw [leading_of_firstToken? whole, leading_of_firstToken? start]

theorem head_of_isBool {tree : Tree} (bool : tree.isBool) :
    ∃ type, tree.children[0]? = some type ∧ type.kind = .predefinedType := by
  rw [isBool] at bool
  split at bool
  next type head =>
    simp only [Bool.and_eq_true, decide_eq_true_eq] at bool
    exact ⟨type, head, bool.1⟩
  next => cases bool

theorem get?_of_isToken {tree found : Tree} {path : List Nat} (shape : tree.WellFormed) (isToken : tree.kind.isToken)
    (present : tree.get? path = some found) : found = tree := by
  rw [path_of_isToken shape isToken present, get?_nil] at present
  exact (Option.some.inj present).symm

section
variable {tree later body close child : Tree} {place : List Nat} {index : Nat} {node : Node}
  (inserted : Inserted tree later place index body child) (shape : tree.WellFormed)
  (known : body.children[index]? = some close) (held : tree.Holds node) (kind : node.kind = .variableDeclaration)

include inserted shape known held kind

private theorem textBefore_around (bool : node.tree.isBool) (isBody : body.kind = .declarationList)
    (above : node.path <+: place) :
    ∃ gap, tree.textBefore (place ++ [index]) = node.textBefore ++ gap ∧
      (node.shifted later place index).textBefore = node.textBefore := by
  obtain ⟨below, rfl⟩ := above
  obtain ⟨type, head, isType⟩ := head_of_isBool bool
  have isToken : type.kind.isToken := by rw [isType]; rfl
  have sound := shape.get? held.present
  have typeShape := sound.child (List.mem_of_getElem? head)
  have inside : node.tree.get? below = some body := by
    have present := inserted.present
    rwa [get?_append, held.present, Option.bind_some] at present
  cases below with
  | nil =>
    rw [get?_nil] at inside
    cases inside
    rw [Node.kind, isBody] at kind
    cases kind
  | cons step rest =>
    obtain ⟨middle, here, deeper⟩ := get?_cons_eq_some.mp inside
    -- The declaration starts with its type, so the new child is below a later child.
    have later : step ≠ 0 := by
      rintro rfl
      obtain rfl : type = middle := Option.some.inj (head.symm.trans here)
      rw [get?_of_isToken typeShape isToken deeper, isType] at isBody
      cases isBody
    have start := leading_of_head (inner_of_child head sound) head isToken
    have still : (node.tree.replaceAt (step :: rest) (body.insertChild index child)).leading = type.leading := by
      refine leading_of_head ?_ ?_ isToken
      · rw [kind_replaceAt inside kind_insertChild]
        exact inner_of_child head sound
      · rw [children_replaceAt_cons here, List.getElem?_set_ne later, head]
    rw [inserted.image_above held rfl, Node.textBefore, Node.textBefore, held.root_eq, still, start, inserted.later_eq,
      textBefore_above _ held.present, List.append_assoc, textBefore_append held.present, List.cons_append,
      textBefore_cons here, texts_take_split head (Nat.pos_of_ne_zero later), text_eq_leading_append typeShape,
      List.take_zero, texts, String.empty_append]
    exact ⟨type.trimmed ++ texts ((node.tree.children.take step).drop 1) ++ middle.textBefore (rest ++ [index]),
      by simp only [String.append_assoc], rfl⟩

/-- A declaration starts in front of the new child, or else behind the brace that follows it. -/
theorem textBefore_image (bool : node.tree.isBool) (isBody : body.kind = .declarationList) (brace : close.isBrace) :
    (∃ gap, tree.textBefore (place ++ [index]) = node.textBefore ++ gap ∧
        (node.shifted later place index).textBefore = node.textBefore) ∨
      ∃ mid, node.textBefore = tree.textBefore (place ++ [index]) ++ (close.text ++ mid) ∧
        (node.shifted later place index).textBefore =
          tree.textBefore (place ++ [index]) ++ (child.text ++ (close.text ++ mid)) := by
  by_cases above : node.path <+: place
  · exact .inl (textBefore_around inserted shape known held kind bool isBody above)
  have beside : ¬ place ++ [index] <+: node.path := by
    intro ⟨rest, split⟩
    have bracePlace : tree.get? (place ++ [index]) = some close := get?_concat inserted.present known
    have present := held.present
    rw [← split, get?_append, bracePlace, Option.bind_some] at present
    simp only [isBrace, Bool.and_eq_true, decide_eq_true_eq] at brace
    rw [Node.kind, get?_of_isToken (shape.get? bracePlace) (by rw [brace.1]; rfl) present, brace.1] at kind
    cases kind
  rw [inserted.image_off held above, Node.textBefore, Node.textBefore, held.root_eq, inserted.later_eq]
  have whole := text_eq_leading_append (shape.get? held.present)
  rcases textBefore_shifted child shape inserted.present known held.present above beside with
    ⟨gap, before, same⟩ | ⟨mid, behind, same⟩
  · left
    rw [before, same, whole]
    exact ⟨node.tree.trimmed ++ gap, by simp only [String.append_assoc], rfl⟩
  · right
    rw [behind, same]
    exact ⟨mid ++ node.tree.leading, by simp only [String.append_assoc], by simp only [String.append_assoc]⟩

/-- A line with a declaration stays silent if the new child breaks no other lines than those that its brace does. -/
theorem unsuppressed_image (sound : later.WellFormed) (bool : node.tree.isBool) (isBody : body.kind = .declarationList)
    (brace : close.isBrace) (silent : 'e' ∉ close.leading.toList) (fits : child.Broken → '\n' ∈ close.leading.toList)
    {rule : Rule} {arguments : List String} (quiet : unsuppressed tree ⟨rule, node, arguments⟩ = false) :
    unsuppressed later ⟨rule, node.shifted later place index, arguments⟩ = false := by
  have bracePlace : tree.get? (place ++ [index]) = some close := get?_concat inserted.present known
  have old := text_around shape bracePlace
  have new := text_insert child shape inserted.present known
  have braceText : close.text.toList = close.leading.toList ++ ['\x7d'] := by
    rw [text_of_isBrace (shape.get? bracePlace) brace, String.toList_append]
    rfl
  have starts : (Defect.span ⟨rule, node, arguments⟩).start = _ := node.start_span shape held
  have startsNow : (Defect.span ⟨rule, node.shifted later place index, arguments⟩).start = _ :=
    Node.start_span sound (inserted.simulation.holds held)
  rw [← inserted.later_eq] at new
  rcases textBefore_image inserted shape known held kind bool isBody brace with ⟨gap, before, same⟩ | ⟨mid, behind, same⟩
  · rw [before, String.append_assoc, String.append_assoc] at old
    rw [before, String.append_assoc, ← same] at new
    rw [unsuppressed_eq_false_iff old starts] at quiet
    rw [unsuppressed_eq_false_iff new startsNow, same]
    simp only [String.toList_append, braceText, List.append_assoc] at quiet ⊢
    exact quiet.before silent fits
  · have rest : tree.text = node.textBefore ++ (node.tree.trimmed ++ tree.textAfter node.path) := by
      rw [text_around shape held.present, text_eq_leading_append (shape.get? held.present), Node.textBefore, held.root_eq]
      simp only [String.append_assoc]
    -- The text behind the brace has the declaration in it.
    have after : tree.textAfter (place ++ [index]) = mid ++ (node.tree.trimmed ++ tree.textAfter node.path) := by
      rw [rest, behind] at old
      simp only [String.append_assoc, String.append_right_inj] at old
      exact old.symm
    have restNow : later.text = (node.shifted later place index).textBefore ++
        (node.tree.trimmed ++ tree.textAfter node.path) := by
      rw [new, same, after]
      simp only [String.append_assoc]
    rw [unsuppressed_eq_false_iff rest starts, behind] at quiet
    rw [unsuppressed_eq_false_iff restNow startsNow, same]
    simp only [String.toList_append, braceText, List.append_assoc] at quiet ⊢
    exact quiet.behind silent fits

end

end Tree

/-- All reports on negated names are on silent lines. -/
def Hushed (rules : List Rule) (tree : Tree) : Prop :=
  ∀ defect ∈ detect rules tree, defect.rule = .negatedName → unsuppressed tree defect = false

instance (rules : List Rule) (tree : Tree) : Decidable (Hushed rules tree) :=
  inferInstanceAs (Decidable (∀ defect ∈ detect rules tree, _))

namespace Fix

/-- The lines of all declarations stay silent when a class gets its method. -/
theorem hushed_converted {rules : List Rule} {tree : Tree} {node body close : Node} {receiver : Receiver}
    (found : Unconverted tree node receiver) (shape : tree.WellFormed) (laid : tree.LaidOut) (hushed : Hushed rules tree)
    (isBody : receiver.definition.classBody? = some body) (shut : closingBrace? body = some close) :
    Hushed rules (tree.replaceAt receiver.definition.path (converted receiver.definition body close)) := by
  have inserted := inserted_of_ok found shape isBody shut
  have place := slot_of_closingBrace? isBody shut
  have done := (missingToString_eq_ok found shape).mpr ⟨body, close, isBody, shut, rfl⟩
  have sound := (converted_of_ok found shape done).shape
  obtain ⟨known, isBrace⟩ := brace_of_closingBrace? shut
  have bodyShut := laid body.tree (mem_subtrees.mpr ⟨_, inserted.present⟩) place.kind_eq
  have silent : 'e' ∉ close.tree.leading.toList := by
    intro member
    have blank := List.all_eq_true.mp (bodyShut close.tree (lastBrace?_of_closingBrace? shut)).1 'e' member
    exact absurd blank (by decide)
  have fits := newline_of_method isBody shut bodyShut (found.sound shape)
  intro defect reported rule
  rw [inserted.simulation.detect_image
    (fun other held kind => declares_image found shape isBody shut held kind) rules] at reported
  obtain ⟨old, member, rfl⟩ := List.mem_map.mp reported
  have oldReported := (List.mem_filter.mp member).1
  rcases detect_cases oldReported with ⟨_, declaration, name, negated, rfl⟩ | ⟨access, other, _, rfl⟩
  · exact unsuppressed_image inserted shape known ⟨negated.root_eq, negated.valid⟩ negated.kind_eq sound
      negated.parts.1 place.kind_eq isBrace silent fits (hushed _ oldReported rfl)
  · cases rule

end Fix

/-- What a run keeps as long as all reports on negated names are on silent lines. -/
structure Calm (rules : List Rule) (state : FixState) : Prop where
  shape : state.tree.WellFormed
  laid : state.tree.LaidOut
  hushed : Hushed rules state.tree
  untouched : ∀ fix ∈ state.applied, fix.ruleId ≠ Rule.negatedName.id

theorem Calm.attempt {rules : List Rule} {state : FixState} {defect : Defect} (calm : Calm rules state)
    (candidate : state.candidate? rules unsuppressed = some defect) : Calm rules (state.attempt defect) := by
  have shape := FixState.wellFormed_attempt calm.shape candidate
  cases FixState.step_of_candidate? candidate with
  | renamed node name fixed found same fits next =>
    -- Such a defect is no candidate: the rules are silent on its line.
    have kept := (FixState.not_givenUp_of_candidate? candidate).2
    have quiet := calm.hushed defect (FixState.mem_detect_of_candidate? candidate) (by rw [same])
    rw [quiet] at kept
    cases kept
  | converted node receiver fixed found same fits next =>
    rw [next] at shape ⊢
    obtain ⟨body, close, isBody, shut, rfl⟩ := (Fix.missingToString_eq_ok found calm.shape).mp fits
    refine ⟨shape, Fix.laidOut_converted found calm.shape calm.laid isBody shut,
      Fix.hushed_converted found calm.shape calm.laid calm.hushed isBody shut, ?_⟩
    intro fix member
    rcases List.mem_append.mp member with earlier | new
    · exact calm.untouched fix earlier
    · rw [List.mem_singleton.mp new, same]
      exact show Rule.missingToString.id ≠ Rule.negatedName.id by decide
  | givenUp why next =>
    rw [next]
    exact ⟨calm.shape, calm.laid, calm.hushed, calm.untouched⟩

theorem Calm.rounds {rules : List Rule} {state : FixState} (calm : Calm rules state) (count : Nat) :
    Calm rules (state.rounds rules unsuppressed count) :=
  FixState.rounds_induction (fun _ _ holds candidate => holds.attempt candidate) calm count

private theorem Rule.id_injective {first second : Rule} (same : first.id = second.id) : first = second := by
  have known := congrArg Rule.ofId? same
  rw [Rule.ofId?_id, Rule.ofId?_id] at known
  exact Option.some.inj known

theorem Options.fixed_hushed {options : Options} {tree : Tree} (shape : tree.WellFormed) (laid : tree.LaidOut)
    (hushed : Hushed options.rules tree) :
    Hushed options.rules (options.fixed tree).1 ∧ ∀ fix ∈ (options.fixed tree).2, fix.ruleId ≠ Rule.negatedName.id := by
  have start : Calm options.rules (.start tree) := ⟨shape, laid, hushed, by intro fix none; cases none⟩
  have final := start.rounds maxRounds
  rw [fixed]
  split
  · exact ⟨final.hushed, final.untouched⟩
  · exact ⟨hushed, start.untouched⟩

/-- Where every report on a negated name is on a silent line, and all classes are laid out properly, no negated name
is fixed or reported, whatever else is fixed. -/
theorem analyze_hushed {options : Options} {source : String} {concrete : Concrete}
    (laid : (concrete.toTree source).LaidOut) (hushed : Hushed options.rules (concrete.toTree source)) (file : String) :
    (∀ fixes ∈ (options.analyze file source concrete).unwritten.fixes, ∀ fix ∈ fixes.applied,
        fix.ruleId ≠ Rule.negatedName.id) ∧
      ∀ finding ∈ (options.analyze file source concrete).unwritten.findings, finding.ruleId ≠ Rule.negatedName.id := by
  obtain ⟨quiet, untouched⟩ := options.fixed_hushed (Concrete.wellFormed_toTree source concrete) laid hushed
  constructor
  · intro fixes reported fix member
    obtain ⟨written, told, rfl⟩ := Option.map_eq_some_iff.mp reported
    simp only [Options.analyze, Option.ite_none_right_eq_some, Option.some.injEq] at told
    obtain ⟨_, rfl⟩ := told
    exact untouched fix member
  · intro finding member same
    obtain ⟨listed, kept⟩ := List.mem_filter.mp member
    rw [findings_eq] at listed
    obtain ⟨defect, reported, rfl⟩ := List.mem_map.mp listed
    have silent := quiet defect reported (Rule.id_injective same)
    rw [unsuppressed, Bool.not_eq_false'] at silent
    rw [Bool.not_eq_true'] at kept
    exact Bool.false_ne_true (kept.symm.trans silent)

def commented (ending : List Concrete) (stop : Nat) (behind : List Concrete) : Concrete :=
  let arguments (start : Nat) : Concrete := .node "argument_list" true start (start + 2)
    [.node "(" false start (start + 1) [], .node ")" false (start + 1) (start + 2) []]
  let access : List Concrete :=
    [.node "global_statement" true 0 16
      [.node "local_declaration_statement" true 0 16
        [.node "variable_declaration" true 0 15
          [.node "implicit_type" true 0 3 [.node "var" false 0 3 []],
            .node "variable_declarator" true 4 15
              [.node "identifier" true 4 5 [], .node "=" false 6 7 [],
                .node "object_creation_expression" true 8 15
                  [.node "new" false 8 11 [], .node "identifier" true 12 13 [], arguments 13]]],
          .node ";" false 15 16 []]],
      .node "global_statement" true 17 30
      [.node "expression_statement" true 17 30
        [.node "invocation_expression" true 17 29
          [.node "member_access_expression" true 17 27
            [.node "identifier" true 17 18 [], .node "." false 18 19 [], .node "identifier" true 19 27 []],
            arguments 27],
          .node ";" false 29 30 []]]]
  let field : Concrete :=
    .node "field_declaration" true 41 58
      [.node "variable_declaration" true 41 57
        [.node "predefined_type" true 41 45 [],
          .node "variable_declarator" true 46 57
            [.node "identifier" true 46 50 [], .node "=" false 51 52 [],
              .node "boolean_literal" true 53 57 [.node "true" false 53 57 []]]],
        .node ";" false 57 58 []]
  let definition : Concrete :=
    .node "class_declaration" true 31 stop
      [.node "class" false 31 36 [], .node "identifier" true 37 38 [],
        .node "declaration_list" true 39 stop (.node "\x7b" false 39 40 [] :: field :: ending)]
  .node "compilation_unit" true 0 82 (access ++ definition :: behind)

def spacious : String × Concrete :=
  ("var a = new A();\na.ToString();\nclass A \x7b\nbool notB = true; // sharplint: ignore\n\x7d\n",
    commented [.node "comment" true 59 79 [], .node "\x7d" false 80 81 []] 81 [])

theorem analyze_hushed_spacious :
    let options : Options := { fix := true }
    let report := (options.analyze "P.cs" spacious.1 spacious.2).unwritten
    (report.fixes.map fun fixes => fixes.applied.map AppliedFix.ruleId) = some [Rule.missingToString.id] ∧
      (∀ fixes ∈ report.fixes, ∀ fix ∈ fixes.applied, fix.ruleId ≠ Rule.negatedName.id) ∧
      ∀ finding ∈ report.findings, finding.ruleId ≠ Rule.negatedName.id := by
  have laid : (spacious.2.toTree spacious.1).LaidOut := by decide +kernel
  have hushed : Hushed (Options.rules { fix := true }) (spacious.2.toTree spacious.1) := by decide +kernel
  exact ⟨by decide +kernel, analyze_hushed laid hushed "P.cs"⟩

/-- The closing brace and the comment behind it stand on the line of the field. -/
def crowded : String × Concrete :=
  ("var a = new A();\na.ToString();\nclass A \x7b\nbool notB = true; \x7d // sharplint: ignore\n",
    commented [.node "\x7d" false 59 60 []] 60 [.node "comment" true 61 81 []])

/-- Here the comment goes down with the brace, and the name it was meant for is fixed in the next round. -/
theorem analyze_crowded :
    let options : Options := { fix := true }
    Hushed options.rules (crowded.2.toTree crowded.1) ∧
      ((options.analyze "P.cs" crowded.1 crowded.2).unwritten.fixes.map fun fixes => fixes.applied.map AppliedFix.ruleId) =
        some [Rule.missingToString.id, Rule.negatedName.id] := by
  decide +kernel

end TreeLint
