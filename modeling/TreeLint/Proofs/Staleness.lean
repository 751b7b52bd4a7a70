import TreeLint.Fix.Basic

/-! What a fix checks before it changes anything, whatever tree its report came from. The renaming
checks all that its rule reports. The other fix checks only that the access still leads to a class with
a closed body, and neither the accessed member nor whether the class has a conversion by now. -/

namespace TreeLint

namespace Fix

structure Renaming.Reads (tree : Tree) (span : Span) (plan : Renaming) : Prop where
  found : tree.covering .variableDeclaration span = .ok plan.declaration
  bool : plan.declaration.isBool
  first : plan.declaration.firstDeclarator? = some plan.declarator
  named : plan.declarator.declaratorName?.map Node.spelling = some plan.oldName
  negated : Name.isNegated plan.oldName
  value_eq : plan.declarator.initializer? = some plan.value

theorem Renaming.reads_of_ok {tree : Tree} {span : Span} {plan : Renaming} (done : read tree span = .ok plan) :
    Reads tree span plan := by
  simp only [read, bind, Except.bind] at done
  cases found : tree.covering .variableDeclaration span with
  | error cause => simp [found] at done
  | ok declaration =>
    simp only [found] at done
    by_cases bool : declaration.isBool = true
    · cases first : declaration.firstDeclarator? with
      | none => simp [bool, first] at done
      | some declarator =>
        cases known : declarator.declaratorName? with
        | none => simp [bool, first, known] at done
        | some name =>
          by_cases negated : Name.isNegated name.spelling = true
          · simp only [bool, first, known, negated, Bool.not_true, Bool.false_eq_true, if_false] at done
            split at done
            · cases done
            · split at done
              next value literal =>
                cases done
                have value := (Option.filter_eq_some_iff.mp literal).1
                exact ⟨found, bool, first, by simp [known], negated, value⟩
              next => cases done
          · simp [bool, first, known, negated] at done
    · simp [bool] at done

theorem Renaming.read_eq_ok {tree : Tree} {span : Span} {plan : Renaming} (done : read tree span = .ok plan) :
    tree.covering .variableDeclaration span = .ok plan.declaration ∧
      plan.declaration.isBool ∧ plan.declaration.declaredName? = some plan.oldName ∧ Name.isNegated plan.oldName := by
  have reads := reads_of_ok done
  refine ⟨reads.found, reads.bool, ?_, reads.negated⟩
  rw [Node.declaredName?, reads.first, Option.bind_some, reads.named]

theorem eq_ok_of_carriedOut {result : Except EditError Tree} {tree : Tree} (done : carriedOut result = .ok tree) :
    result = .ok tree := by
  cases result with
  | error cause => cases done
  | ok found => cases done; rfl

/-- A renaming that goes through is a plan and two lists of edits, one after the other. -/
theorem negatedName_steps {tree fixed : Tree} {span : Span} (done : negatedName tree span = .ok fixed) :
    ∃ plan renamed, Renaming.read tree span = .ok plan ∧
      Edit.applyAll tree [.replacing plan.declaration plan.replacement] = .ok renamed ∧
      Edit.applyAll renamed
        ((usesOf renamed plan.oldName).map fun token => .replacing token (Build.negation plan.newName)) = .ok fixed := by
  cases read : Renaming.read tree span with
  | error failure => simp [negatedName, read, bind, Except.bind] at done
  | ok plan =>
    simp only [negatedName, read, bind, Except.bind] at done
    cases first : carriedOut (Edit.applyAll tree [.replacing plan.declaration plan.replacement]) with
    | error failure => simp [first] at done
    | ok renamed =>
      simp only [first] at done
      split at done
      · cases done
      · exact ⟨plan, renamed, rfl, eq_ok_of_carriedOut first, eq_ok_of_carriedOut done⟩

theorem negatedName_reads {tree fixed : Tree} {span : Span} (done : negatedName tree span = .ok fixed) :
    ∃ plan, Renaming.read tree span = .ok plan := by
  obtain ⟨plan, _, read, _⟩ := negatedName_steps done
  exact ⟨plan, read⟩

/-- A new method comes from a class with a closed body, which one edit extends. -/
theorem missingToString_steps {tree fixed : Tree} {span : Span} (done : missingToString tree span = .ok fixed) :
    ∃ access receiver body close, tree.covering .memberAccess span = .ok access ∧ access.receiver? = some receiver ∧
      receiver.definition.classBody? = some body ∧ closingBrace? body = some close ∧
      Edit.applyAll tree [.replacing receiver.definition (receiver.definition.tree.replaceChild body.index
        (body.tree.insertChild close.index (listingMethod receiver.definition.fieldNames
          (Layout.choose receiver.definition.classMembers close))))] = .ok fixed := by
  simp only [missingToString, bind, Except.bind] at done
  cases found : tree.covering .memberAccess span with
  | error cause => simp [found] at done
  | ok access =>
    cases known : access.receiver? with
    | none => simp [found, known] at done
    | some receiver =>
      cases isBody : receiver.definition.classBody? with
      | none => simp [found, known, isBody] at done
      | some body =>
        cases shut : closingBrace? body with
        | none => simp [found, known, isBody, shut] at done
        | some close =>
          simp only [found, known, isBody, shut] at done
          refine ⟨access, receiver, body, close, rfl, known, isBody, shut, ?_⟩
          split at done
          next result carried => cases done; exact carried
          next => cases done

theorem missingToString_reads {tree fixed : Tree} {span : Span} (done : missingToString tree span = .ok fixed) :
    ∃ access receiver, tree.covering .memberAccess span = .ok access ∧ access.receiver? = some receiver := by
  obtain ⟨access, receiver, _, _, found, known, _⟩ := missingToString_steps done
  exact ⟨access, receiver, found, known⟩

end Fix

namespace Rule

theorem isSome_checkNegatedName {node : Node} {name : String} (bool : node.isBool)
    (named : node.declaredName? = some name) (negated : Name.isNegated name) : (checkNegatedName node).isSome := by
  simp [checkNegatedName, bool, named, negated]

theorem isSome_checkMissingToString {node : Node} {receiver : Receiver} (known : node.receiver? = some receiver) :
    (checkMissingToString node).isSome ↔
      (∃ member, node.memberName? = some member ∧ member.spelling = toStringName) ∧
        receiver.definition.hasMethod toStringName = false := by
  rw [checkMissingToString, known]
  cases node.memberName? with
  | none => simp
  | some member =>
    by_cases spelled : member.spelling = toStringName
    · by_cases has : receiver.definition.hasMethod toStringName = true <;> simp [spelled, has]
    · simp [spelled]

end Rule

/-- A fix that goes through was asked for at a node of the kind its rule looks at. The rule reports on
that node, unless the fix is for a missing conversion and either another member is accessed there or the
class has a conversion already: then the fix goes through although there is nothing to report. -/
theorem applyFix_reported_iff {tree fixed : Tree} {rule : Rule} {span : Span}
    (done : applyFix tree rule.id span = .ok fixed) :
    ∃ node, tree.covering rule.anchorKind span = .ok node ∧
      ((rule.check node).isSome ↔
        (rule = .missingToString →
          (∃ member, node.memberName? = some member ∧ member.spelling = toStringName) ∧
            ∀ receiver, node.receiver? = some receiver → receiver.definition.hasMethod toStringName = false)) := by
  cases rule with
  | negatedName =>
    obtain ⟨plan, read⟩ := Fix.negatedName_reads done
    obtain ⟨found, bool, named, negated⟩ := Fix.Renaming.read_eq_ok read
    have reported := Rule.isSome_checkNegatedName bool named negated
    refine ⟨plan.declaration, found, ?_⟩
    simp only [reduceCtorEq, false_imp_iff, iff_true]
    exact reported
  | missingToString =>
    obtain ⟨access, receiver, found, known⟩ := Fix.missingToString_reads done
    refine ⟨access, found, ?_⟩
    rw [Rule.check, Rule.isSome_checkMissingToString known]
    simp [known]

def accessedEarly : Tree :=
  .node .compilationUnit
    [.node .variableDeclaration
      [.token .identifier "" "Box",
        .node .variableDeclarator
          [.token .identifier " " "box", .token .punctuation " " "=",
            .node .objectCreation [.token .keyword " " "new", .token .identifier " " "Box"]]],
      .token .punctuation "" ";",
      .node .memberAccess
        [.token .identifier " " "box", .token .punctuation "" ".", .token .identifier "" "ToString"],
      .token .punctuation "" ";",
      .node .classDeclaration
        [.token .keyword " " "class", .token .identifier " " "Box",
          .node .declarationList [.token .punctuation " " "\x7b", .token .punctuation " " "\x7d"]]]

private theorem eq_ok_of_toOption {ε α : Type} {result : Except ε α} {value : α} (computed : result.toOption = some value) :
    result = .ok value := by
  cases result with
  | error failure => cases computed
  | ok found => exact congrArg Except.ok (Option.some.inj computed)

theorem applyFix_reported_iff_accessedEarly :
    ∃ fixed, applyFix accessedEarly Rule.missingToString.id ⟨19, 31⟩ = .ok fixed ∧
      ∃ node, accessedEarly.covering .memberAccess ⟨19, 31⟩ = .ok node ∧ (Rule.missingToString.check node).isSome := by
  have some : (applyFix accessedEarly Rule.missingToString.id ⟨19, 31⟩).toOption.isSome := by decide +kernel
  obtain ⟨fixed, done⟩ := Option.isSome_iff_exists.mp some
  obtain ⟨node, found, reported⟩ := applyFix_reported_iff (eq_ok_of_toOption done)
  have shown : (accessedEarly.covering .memberAccess ⟨19, 31⟩).toOption.all (fun node =>
      node.memberName?.any (fun member => member.spelling = toStringName) &&
        node.receiver?.all fun receiver => !receiver.definition.hasMethod toStringName) := by
    decide +kernel
  refine ⟨fixed, eq_ok_of_toOption done, node, found, reported.mpr fun _ => ?_⟩
  change accessedEarly.covering .memberAccess ⟨19, 31⟩ = .ok node at found
  simp only [found, Except.toOption, Option.all_some, Bool.and_eq_true] at shown
  refine ⟨?_, ?_⟩
  · cases known : node.memberName? with
    | none => simp [known] at shown
    | some member => exact ⟨member, rfl, by simpa [known] using shown.1⟩
  · intro receiver known
    simpa [known] using shown.2

/-- A report that was fixed once is fixed a second time: the class gets a second conversion, though the
rule does not report on the access any more. -/
theorem applyFix_stale_accessedEarly :
    ∃ fixed again node, applyFix accessedEarly Rule.missingToString.id ⟨19, 31⟩ = .ok fixed ∧
      applyFix fixed Rule.missingToString.id ⟨19, 31⟩ = .ok again ∧
      fixed.covering Rule.missingToString.anchorKind ⟨19, 31⟩ = .ok node ∧
      Rule.missingToString.check node = none := by
  have computed : ((applyFix accessedEarly Rule.missingToString.id ⟨19, 31⟩).toOption.bind fun fixed =>
      (applyFix fixed Rule.missingToString.id ⟨19, 31⟩).toOption.bind fun _ =>
        (fixed.covering Rule.missingToString.anchorKind ⟨19, 31⟩).toOption.map fun node =>
          (Rule.missingToString.check node).isNone) = some true := by
    decide +kernel
  rw [Option.bind_eq_some_iff] at computed
  obtain ⟨fixed, done, rest⟩ := computed
  rw [Option.bind_eq_some_iff] at rest
  obtain ⟨again, twice, rest⟩ := rest
  rw [Option.map_eq_some_iff] at rest
  obtain ⟨node, found, silent⟩ := rest
  exact ⟨fixed, again, node, eq_ok_of_toOption done, eq_ok_of_toOption twice, eq_ok_of_toOption found,
    Option.isNone_iff_eq_none.mp silent⟩

end TreeLint
