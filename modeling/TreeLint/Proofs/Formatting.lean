import Mathlib.Data.List.InsertIdx
import TreeLint.Proofs.Bare
import TreeLint.Proofs.Rounds

/-! Fixing does not depend on formatting. A fix finds its target by bytes and lays a new method out like what is
around it, but without trivia its result is the same for every formatting of a file. So runs on two formattings
of one file stay alike round by round, and end alike. -/

namespace TreeLint

namespace Tree

@[simp] theorem role_bare (tree : Tree) : tree.bare.role = tree.role := by
  rw [← role_sketch, sketch_bare, role_sketch]

theorem unclaimed_bare {name : String} {tree : Tree} : Unclaimed name tree.bare ↔ Unclaimed name tree := by
  have same (found : Tree) : found.bare.introduced? = found.introduced? := by
    rw [← introduced?_sketch, sketch_bare, introduced?_sketch]
  rw [Unclaimed, subtrees_bare, List.forall_mem_map]
  simp only [same]
  rfl

theorem literal?_bare (tree : Tree) : tree.bare.literal? = tree.literal?.map bare := by
  have equals : (fun child : Tree => !child.isEquals) ∘ bare = fun child => !child.isEquals := by
    funext child
    simp [isEquals]
  rw [literal?, literal?, declarator?, declarator?, find?_children_bare]
  cases tree.children.find? fun child => child.kind = .variableDeclarator with
  | none => rfl
  | some declarator =>
    rw [Option.map_some, Option.bind_some, Option.bind_some, initializer?, initializer?, children_bare, List.dropWhile_map,
      equals, List.getElem?_map]
    cases (declarator.children.dropWhile fun child => !child.isEquals)[1]? with
    | none => rfl
    | some value => by_cases literal : value.isLiteral <;> simp_all [Option.filter, isLiteral]

theorem others_bare (tree : Tree) : tree.bare.others = tree.others.map bare := by
  have same : (fun child : Tree => decide (child.kind = .variableDeclarator)) ∘ bare =
      fun child => decide (child.kind = .variableDeclarator) := by
    funext child
    simp
  rw [others, others, children_bare, List.findIdx_map, same, List.map_drop]

theorem bare_renamed (declaration : Tree) {value : Tree} (shape : value.WellFormed) (name : String) :
    (declaration.bare.renamed value.bare name).bare = (declaration.renamed value name).bare := by
  have same : declaration.others.map (bare ∘ bare) = declaration.others.map bare :=
    List.map_congr_left fun child _ => bare_bare child
  simp only [renamed_eq, newDeclarator, bare_node, List.map_cons, List.map_nil, others_bare, List.map_map, same,
    bare_withLeading shape, bare_withLeading shape.bare, bare_bare]

theorem isUse_bare (name : String) (tree : Tree) : tree.bare.isUse name = tree.isUse name := by
  cases tree <;> rfl

theorem bare_negateUses (old new : String) (tree : Tree) :
    (tree.bare.negateUses old new).bare = (tree.negateUses old new).bare := by
  induction tree with
  | token kind leading text =>
    by_cases used : (token kind leading text).isUse old
    · have bareUsed : (token kind leading text).bare.isUse old := by rwa [isUse_bare]
      rw [negateUses_of_isUse used, negateUses_of_isUse bareUsed, bare_withLeading (wellFormed_negation new),
        bare_withLeading (wellFormed_negation new)]
    · have bareUnused : ¬ (token kind "" text).isUse old := used
      rw [negateUses_token used, show (token kind leading text).bare = token kind "" text from rfl,
        negateUses_token bareUnused]
      rfl
  | node kind children ih =>
    have same : children.map ((bare ∘ negateUses old new) ∘ bare) = children.map (bare ∘ negateUses old new) :=
      List.map_congr_left ih
    rw [bare_node, negateUses_node, negateUses_node, bare_node, bare_node, List.map_map, List.map_map, List.map_map, same]

end Tree

theorem map_toOption_eq_some {ε : Type} {result : Except ε Tree} {view : Tree → Tree} {seen : Tree} :
    result.toOption.map view = some seen ↔ ∃ fixed, result = .ok fixed ∧ seen = view fixed := by
  cases result with
  | error failure => simp [Except.toOption]
  | ok fixed => simp [Except.toOption, eq_comm]

namespace Fix
open TreeLint.Tree

variable {tree : Tree} {node : Node}

theorem bare_renamedAt {name : String} {value : Tree} (found : Negated tree node name) (shape : tree.WellFormed)
    (literal : node.tree.literal? = some value) :
    (renamedAt tree.bare node.bare name value.bare).bare = (renamedAt tree node name value).bare := by
  have sound := found.sound shape
  have fresh := wellFormed_renamed sound literal (Name.affirmed name)
  have bareLiteral : node.tree.bare.literal? = some value.bare := by rw [literal?_bare, literal, Option.map_some]
  have bareFresh := wellFormed_renamed sound.bare bareLiteral (Name.affirmed name)
  simp only [renamedAt, Node.bare, bare_replaceAt, bare_bare, bare_withLeading fresh, bare_withLeading bareFresh,
    bare_renamed node.tree (sound.literal? literal)]

end Fix

theorem Negated.bare {tree : Tree} {node : Node} {name : String} (found : Negated tree node name) :
    Negated tree.bare node.bare name where
  root_eq := congrArg Tree.bare found.root_eq
  valid := (Tree.Holds.bare ⟨found.root_eq, found.valid⟩).valid
  kind_eq := (Node.kind_bare node).trans found.kind_eq
  name_eq := by rw [Node.bare, Tree.role_bare, found.name_eq]

/-- The renaming fix is refused for all formattings of a file or for none. -/
theorem Fix.negatedName_bare {tree : Tree} {node : Node} {name : String} (found : Negated tree node name)
    (shape : tree.WellFormed) :
    (negatedName tree.bare node.bare.span).toOption.map Tree.bare = (negatedName tree node.span).toOption.map Tree.bare := by
  apply Option.ext
  intro seen
  rw [map_toOption_eq_some, map_toOption_eq_some]
  constructor
  · rintro ⟨fixed, done, rfl⟩
    obtain ⟨starts, _, literal, unclaimed, rfl⟩ := (negatedName_eq_ok found.bare shape.bare).mp done
    rw [Node.bare, Tree.literal?_bare, Option.map_eq_some_iff] at literal
    obtain ⟨value, literal, rfl⟩ := literal
    have same := bare_renamedAt found shape literal
    rw [← Tree.unclaimed_bare, same, Tree.unclaimed_bare] at unclaimed
    refine ⟨_, (negatedName_eq_ok found shape).mpr ⟨starts, value, literal, unclaimed, rfl⟩, ?_⟩
    rw [← Tree.bare_negateUses, same, Tree.bare_negateUses]
  · rintro ⟨fixed, done, rfl⟩
    obtain ⟨starts, value, literal, unclaimed, rfl⟩ := (negatedName_eq_ok found shape).mp done
    have bareLiteral : node.bare.tree.literal? = some value.bare := by
      rw [Node.bare, Tree.literal?_bare, literal, Option.map_some]
    have same := bare_renamedAt found shape literal
    rw [← Tree.unclaimed_bare, ← same, Tree.unclaimed_bare] at unclaimed
    refine ⟨_, (negatedName_eq_ok found.bare shape.bare).mpr ⟨starts, value.bare, bareLiteral, unclaimed, rfl⟩, ?_⟩
    rw [← Tree.bare_negateUses, ← same, Tree.bare_negateUses]

namespace Tree

theorem bare_extended (definition body method : Tree) (slot index : Nat) :
    (extended definition body method slot index).bare = extended definition.bare body.bare method.bare slot index := by
  simp only [extended, replaceChild, insertChild, bare_node, List.map_set, List.map_insertIdx, kind_bare, children_bare,
    List.length_map]

private theorem bare_block {statements : List Tree} (shape : ∀ statement ∈ statements, statement.WellFormed)
    (first second : Option String) : (Build.block statements first).bare = (Build.block statements second).bare := by
  have plain (trivia : String) : statements.map (bare ∘ withLeading trivia) = statements.map bare :=
    List.map_congr_left fun statement member => bare_withLeading (shape statement member) trivia
  simp only [Build.block, bare_node, List.map_cons, List.map_append, List.map_map, plain]
  rfl

/-- Only the trivia of the new method depends on its layout. -/
theorem bare_listingMethod (fields : List String) (first second : Fix.Layout) :
    (Fix.listingMethod fields first).bare = (Fix.listingMethod fields second).bare := by
  have same := bare_block (List.forall_mem_singleton.mpr (made_listing fields).shape) first.indent second.indent
  rw [listingMethod_eq, listingMethod_eq, bare_withLeading (made_unplaced _ _).shape,
    bare_withLeading (made_unplaced _ _).shape]
  simp only [unplaced, Build.method, bare_node, List.map_append, List.map_cons, same]

end Tree

namespace Node
open TreeLint.Tree

theorem childOfKind?_bare (node : Node) (kind : Kind) :
    node.bare.childOfKind? kind = (node.childOfKind? kind).map bare := by
  rw [childOfKind?, childOfKind?, children_bare, List.find?_map]
  congr 2
  funext child
  simp [kind_bare]

theorem classMembers_bare (definition : Node) : definition.bare.classMembers = definition.classMembers.map bare := by
  rw [classMembers, classMembers, classBody?, classBody?, childOfKind?_bare]
  cases definition.childOfKind? .declarationList with
  | none => rfl
  | some body =>
    rw [Option.map_some]
    simp only [children_bare, List.filter_map]
    congr 2
    funext child
    simp [Node.isToken, Tree.isToken, bare]

theorem fieldNames_bare (definition : Node) : definition.bare.fieldNames = definition.fieldNames := by
  have fields : (fun member : Node => decide (member.kind = .fieldDeclaration)) ∘ bare =
      fun member => decide (member.kind = .fieldDeclaration) := by
    funext member
    simp [kind_bare]
  have names : (fun field : Node => (field.childOfKind? .variableDeclaration).bind declaredName?) ∘ bare =
      fun field => (field.childOfKind? .variableDeclaration).bind declaredName? := by
    funext field
    rw [Function.comp_apply, childOfKind?_bare]
    cases field.childOfKind? .variableDeclaration with
    | none => rfl
    | some declaration =>
      rw [Option.map_some, Option.bind_some, Option.bind_some, declaredName?_eq, declaredName?_eq, bare,
        ← declaredName?_sketch, sketch_bare, declaredName?_sketch]
  rw [fieldNames, fieldNames, classMembers_bare, List.filter_map, List.filterMap_map, fields, names]

theorem closingBrace?_bare (body : Node) : Fix.closingBrace? body.bare = (Fix.closingBrace? body).map bare := by
  rw [Fix.closingBrace?, Fix.closingBrace?, children_bare, List.filter_map, List.getLast?_map]
  congr 3
  funext child
  simp [kind_bare, spelling_bare]

end Node

theorem Unconverted.bare {tree : Tree} {node : Node} {receiver : Receiver} (found : Unconverted tree node receiver) :
    Unconverted tree.bare node.bare (receiver.moved Node.bare) where
  root_eq := congrArg Tree.bare found.root_eq
  valid := (Tree.Holds.bare ⟨found.root_eq, found.valid⟩).valid
  kind_eq := (Node.kind_bare node).trans found.kind_eq
  receiver_eq := by
    rw [(simulation_bare tree).receiver? ⟨found.root_eq, found.valid⟩ found.kind_eq, found.receiver_eq, Option.map_some]
  missing := (Tree.declares_bare receiver.definition.tree toStringName).trans found.missing
  shown := by
    obtain ⟨member, child, isName, spelled⟩ := found.shown
    refine ⟨member.bare, ?_, (Node.kind_bare member).trans isName, (Node.spelling_bare member).trans spelled⟩
    rw [Node.children_bare]
    exact List.mem_map_of_mem child

namespace Fix
open TreeLint.Tree

theorem bare_converted {definition body close : Node} (shape : definition.tree.WellFormed)
    (place : Slot definition.tree body.tree body.index close.index)
    (barePlace : Slot definition.bare.tree body.bare.tree body.bare.index close.bare.index) :
    (converted definition.bare body.bare close.bare).bare = (converted definition body close).bare := by
  have fresh (fields : List String) (layout : Layout) := (neutral_listingMethod fields layout).1
  rw [converted, converted, bare_withLeading (wellFormed_extended barePlace shape.bare (fresh _ _)),
    bare_withLeading (wellFormed_extended place shape (fresh _ _)), bare_extended, bare_extended, Node.fieldNames_bare,
    bare_listingMethod definition.fieldNames _ (Layout.choose definition.classMembers close)]
  simp only [Node.bare, bare_bare]
  rfl

/-- The conversion fix is refused for all formattings of a file or for none. -/
theorem missingToString_bare {tree : Tree} {node : Node} {receiver : Receiver} (found : Unconverted tree node receiver)
    (shape : tree.WellFormed) :
    (missingToString tree.bare node.bare.span).toOption.map Tree.bare =
      (missingToString tree node.span).toOption.map Tree.bare := by
  apply Option.ext
  intro seen
  rw [map_toOption_eq_some, map_toOption_eq_some]
  have same {body close : Node} (isBody : receiver.definition.classBody? = some body)
      (shut : closingBrace? body = some close) (bareBody : receiver.definition.bare.classBody? = some body.bare)
      (bareShut : closingBrace? body.bare = some close.bare) :
      (tree.bare.replaceAt receiver.definition.path (converted receiver.definition.bare body.bare close.bare)).bare =
        (tree.replaceAt receiver.definition.path (converted receiver.definition body close)).bare := by
    rw [bare_replaceAt, bare_replaceAt, bare_bare, bare_converted (found.sound shape) (slot_of_closingBrace? isBody shut)
      (slot_of_closingBrace? bareBody bareShut)]
  constructor
  · rintro ⟨fixed, done, rfl⟩
    obtain ⟨_, _, bareBody, bareShut, rfl⟩ := (missingToString_eq_ok found.bare shape.bare).mp done
    have isBody := bareBody
    rw [Receiver.moved, Node.classBody?, Node.childOfKind?_bare, Option.map_eq_some_iff] at isBody
    obtain ⟨body, isBody, rfl⟩ := isBody
    have shut := bareShut
    rw [Node.closingBrace?_bare, Option.map_eq_some_iff] at shut
    obtain ⟨close, shut, rfl⟩ := shut
    exact ⟨_, (missingToString_eq_ok found shape).mpr ⟨body, close, isBody, shut, rfl⟩, same isBody shut bareBody bareShut⟩
  · rintro ⟨fixed, done, rfl⟩
    obtain ⟨body, close, isBody, shut, rfl⟩ := (missingToString_eq_ok found shape).mp done
    have bareBody : receiver.definition.bare.classBody? = some body.bare := by
      rw [Node.classBody?, Node.childOfKind?_bare, show receiver.definition.childOfKind? .declarationList = _ from isBody,
        Option.map_some]
    have bareShut : closingBrace? body.bare = some close.bare := by
      rw [Node.closingBrace?_bare, shut, Option.map_some]
    exact ⟨_, (missingToString_eq_ok found.bare shape.bare).mpr ⟨body.bare, close.bare, bareBody, bareShut, rfl⟩,
      (same isBody shut bareBody bareShut).symm⟩

end Fix

namespace Defect

variable {rules : List Rule} {tree : Tree} {defect : Defect}

theorem site_bare (reported : defect ∈ detect rules tree) : (defect.moved Node.bare).site = defect.site := by
  rcases detect_cases reported with ⟨_, node, name, found, rfl⟩ | ⟨node, receiver, found, rfl⟩
  · rfl
  · simp only [site, moved, found.receiver_eq, found.bare.receiver_eq]
    rfl

theorem fixIn_bare (reported : defect ∈ detect rules tree) (shape : tree.WellFormed) :
    ((defect.moved Node.bare).fixIn tree.bare).toOption.map Tree.bare = (defect.fixIn tree).toOption.map Tree.bare := by
  rcases detect_cases reported with ⟨_, node, name, found, rfl⟩ | ⟨node, receiver, found, rfl⟩
  · rw [moved, FixState.fixIn_negatedName, FixState.fixIn_negatedName, Fix.negatedName_bare found shape]
  · rw [moved, FixState.fixIn_missingToString, FixState.fixIn_missingToString, Fix.missingToString_bare found shape]

end Defect

namespace FixState

def bare (state : FixState) : FixState :=
  { state with tree := state.tree.bare }

variable (rules : List Rule)

theorem candidate?_bare (state : FixState) :
    state.bare.candidate? rules (fun _ _ => true) =
      (state.candidate? rules fun _ _ => true).map (Defect.moved Node.bare) := by
  rw [candidate?, candidate?, bare, detect_bare, List.find?_map]
  congr 1
  apply List.find?_congr
  intro defect reported
  rw [Function.comp_apply, Defect.site_bare reported]
  rfl

theorem attempt_bare {rules : List Rule} {state : FixState} {defect : Defect} (shape : state.tree.WellFormed)
    (reported : defect ∈ detect rules state.tree) :
    (state.bare.attempt (defect.moved Node.bare)).bare = (state.attempt defect).bare := by
  have same := Defect.fixIn_bare reported shape
  simp only [attempt, bare, Defect.site_bare reported]
  split
  · simp
  · cases plain : defect.fixIn state.tree with
    | error failure =>
      cases stripped : (defect.moved Node.bare).fixIn state.tree.bare with
      | error other => simp
      | ok fixed => rw [plain, stripped] at same; cases same
    | ok fixed =>
      cases stripped : (defect.moved Node.bare).fixIn state.tree.bare with
      | error failure => rw [plain, stripped] at same; cases same
      | ok other =>
        rw [plain, stripped] at same
        have equal : other.bare = fixed.bare := Option.some.inj same
        simp [equal, Defect.moved]

/-- Two formattings of one file stay alike from round to round. -/
theorem rounds_alike {first second : FixState} (firstShape : first.tree.WellFormed) (secondShape : second.tree.WellFormed)
    (alike : first.bare = second.bare) (count : Nat) :
    (first.rounds rules (fun _ _ => true) count).bare = (second.rounds rules (fun _ _ => true) count).bare := by
  induction count generalizing first second with
  | zero => exact alike
  | succ count ih =>
    have next : (first.candidate? rules fun _ _ => true).map (Defect.moved Node.bare) =
        (second.candidate? rules fun _ _ => true).map (Defect.moved Node.bare) := by
      rw [← candidate?_bare, alike, candidate?_bare]
    rw [rounds, rounds, round?, round?]
    cases one : first.candidate? rules fun _ _ => true with
    | none =>
      cases two : second.candidate? rules fun _ _ => true with
      | none => exact alike
      | some other => rw [one, two] at next; cases next
    | some defect =>
      cases two : second.candidate? rules fun _ _ => true with
      | none => rw [one, two] at next; cases next
      | some other =>
        rw [one, two] at next
        refine ih (wellFormed_attempt firstShape one) (wellFormed_attempt secondShape two) ?_
        rw [← attempt_bare firstShape (mem_detect_of_candidate? one), Option.some.inj next, alike,
          attempt_bare secondShape (mem_detect_of_candidate? two)]

end FixState

/-- Two formattings of one file have the same reports at the same places, the same fixes are carried out on them,
and what comes out are two formattings of one file. -/
theorem fixAll_formatting (rules : List Rule) {first second : Tree} (firstShape : first.WellFormed)
    (secondShape : second.WellFormed) (same : first.bare = second.bare) :
    ((detect rules first).map fun defect => (defect.rule.id, defect.anchor.path, defect.arguments)) =
        ((detect rules second).map fun defect => (defect.rule.id, defect.anchor.path, defect.arguments)) ∧
      (fixAll rules first).applied = (fixAll rules second).applied ∧
      (fixAll rules first).tree.bare = (fixAll rules second).tree.bare := by
  have reports (tree : Tree) : ((detect rules tree).map fun defect =>
      (defect.rule.id, defect.anchor.path, defect.arguments)) =
      (detect rules tree.bare).map fun defect => (defect.rule.id, defect.anchor.path, defect.arguments) := by
    rw [detect_bare, List.map_map]
    rfl
  have alike : (FixState.start first).bare = (FixState.start second).bare := by
    simp only [FixState.bare, FixState.start, same]
  have runs := FixState.rounds_alike rules firstShape secondShape alike maxRounds
  have applied := congrArg FixState.applied runs
  have formatted := congrArg FixState.tree runs
  exact ⟨by rw [reports first, reports second, same], applied, formatted⟩

def noted (trivia : String) : Tree :=
  .node .compilationUnit
    [.node .classDeclaration
      [.token .keyword trivia "class", .token .identifier trivia "Box",
        .node .declarationList
          [.token .punctuation trivia "\x7b",
            .node .fieldDeclaration
              [.node .variableDeclaration
                [.token .predefinedType trivia "bool",
                  .node .variableDeclarator
                    [.token .identifier trivia "notSet", .token .punctuation trivia "=",
                      .token .literalToken trivia "true"]],
                .token .punctuation trivia ";"],
            .token .punctuation trivia "\x7d"]],
      .node .variableDeclaration
        [.token .implicitType trivia "var",
          .node .variableDeclarator
            [.token .identifier trivia "box", .token .punctuation trivia "=",
              .node .objectCreation [.token .keyword trivia "new", .token .identifier trivia "Box"]]],
      .node .memberAccess
        [.token .identifier trivia "box", .token .punctuation trivia ".", .token .identifier trivia "ToString"]]

theorem fixAll_formatting_noted :
    (noted " ").bare = (noted "\n    ").bare ∧ (fixAll Rule.all (noted " ")).applied.length = 2 ∧
      (fixAll Rule.all (noted "\n    ")).applied = (fixAll Rule.all (noted " ")).applied ∧
      (fixAll Rule.all (noted "\n    ")).tree.bare = (fixAll Rule.all (noted " ")).tree.bare := by
  have shape (trivia : String) : (noted trivia).WellFormed := by
    simp [noted, Tree.WellFormed, Tree.AllWellFormed, Kind.isToken]
  obtain ⟨_, applied, alike⟩ := fixAll_formatting Rule.all (shape "\n    ") (shape " ") rfl
  exact ⟨rfl, by decide +kernel, applied, alike⟩

end TreeLint
