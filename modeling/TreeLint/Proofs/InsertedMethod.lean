import TreeLint.Proofs.ConvertedReports
import TreeLint.Proofs.RenamedText

/-! The text that the fix for a missing conversion writes. The new method comes between two tokens of the file, right
in front of the closing brace and the trivia of the brace. All other tokens stay as they are, and the method reads as its
layout and the fields of the class say. -/

namespace TreeLint

namespace Tree

theorem firstToken?_eq_none {tree : Tree} : tree.firstToken? = none ↔ ∀ found ∈ tree.subtrees, found.isToken = false := by
  constructor
  · intro bare found member
    obtain ⟨path, present⟩ := mem_subtrees.mp member
    have none := no_token_below present bare
    by_contra isToken
    rw [firstToken?_of_isToken (Bool.of_not_eq_false isToken)] at none
    cases none
  · intro inner
    induction tree with
    | token kind leading text =>
      have notToken : kind.isToken = false := inner _ (self_mem_subtrees _)
      simp [firstToken?, notToken]
    | node kind children ih =>
      rw [firstToken?_inner (inner _ (self_mem_subtrees _))]
      refine firstTokenOf?_eq_none.mpr fun child member => ih child member fun found inside => ?_
      exact inner found (mem_subtrees_of_child member inside)

/-- A new child brings its tokens, in front of those of the child that stood there. -/
theorem tokens_insert {tree body close : Tree} {place : List Nat} {index : Nat} (shape : tree.WellFormed)
    (present : tree.get? place = some body) (known : body.children[index]? = some close) (child : Tree) :
    (tree.replaceAt place (body.insertChild index child)).tokens = tree.tokensBefore (place ++ [index]) ++
      (child.tokens ++ (close.tokens ++ tree.tokensAfter (place ++ [index]))) := by
  have inside := Nat.le_of_lt (List.getElem?_eq_some_iff.mp known).1
  have inner := inner_of_child known (shape.get? present)
  have still : (body.insertChild index child).kind.isToken = false := inner
  rw [tokens_replaceAt shape present, tokens_inner still, children_insertChild_of_le inside, tokensOf_append, tokensOf,
    drop_eq_cons known, tokensOf, tokensBefore_append present, tokensAfter_append present, tokensBefore_cons known,
    tokensAfter_cons known]
  simp only [tokensBefore_nil, tokensAfter_nil, List.append_nil, List.nil_append, List.append_assoc]

end Tree

namespace Node
open TreeLint.Tree

def leaves (node : Node) : List Node :=
  node.selfAndDescendants.filter Node.isToken

theorem descendantTokens_eq (node : Node) : node.descendantTokens = node.children.flatMap leaves := by
  rw [descendantTokens, descendants_eq_preorder, preorder_eq_flatMap, List.filter_flatMap]
  congr 1
  funext child
  rw [leaves, selfAndDescendants, descendants_eq_preorder]

theorem leaves_of_inner {node : Node} (inner : node.isToken = false) : node.leaves = node.descendantTokens :=
  List.filter_cons_of_neg (by simp [inner])

theorem leaves_of_leaf {node : Node} (isToken : node.isToken) (bare : node.tree.children = []) :
    node.leaves = [node] := by
  have below : node.descendants = [] := by
    rw [descendants_eq_preorder, preorder, bare, preorderAll]
  rw [leaves, selfAndDescendants, below, List.filter_cons_of_pos isToken, List.filter_nil]

theorem leaves_eq_nil {node : Node} : node.leaves = [] ↔ node.tree.firstToken? = none := by
  rw [firstToken?_eq_none, ← map_tree_selfAndDescendants, leaves, List.filter_eq_nil_iff]
  simp only [List.mem_map, forall_exists_index, and_imp, forall_apply_eq_imp_iff₂, Bool.not_eq_true]
  rfl

theorem flatMap_leaves_eq_nil {nodes : List Node} :
    nodes.flatMap leaves = [] ↔ firstTokenOf? (nodes.map Node.tree) = none := by
  simp [firstTokenOf?_eq_none, leaves_eq_nil]

theorem descendantTokens_split {node child : Node} (member : child ∈ node.children) :
    node.descendantTokens = (node.children.take child.index).flatMap leaves ++
      (child.leaves ++ (node.children.drop (child.index + 1)).flatMap leaves) := by
  obtain ⟨inside, same⟩ := List.getElem?_eq_some_iff.mp (getElem?_index node member)
  calc node.descendantTokens
      = (node.children.take child.index ++ node.children.drop child.index).flatMap leaves := by
        rw [List.take_append_drop, descendantTokens_eq]
    _ = _ := by rw [List.flatMap_append, List.drop_eq_getElem_cons inside, same, List.flatMap_cons]

end Node

namespace Fix
open TreeLint.Tree TreeLint.Node

variable {definition body close : Node}

def Preceded (definition close : Node) : Prop :=
  ∃ token, [token, close].Sublist definition.descendantTokens

theorem descendantTokens_eq_append (shape : definition.tree.WellFormed) (isBody : definition.classBody? = some body)
    (shut : closingBrace? body = some close) :
    ∃ rest, definition.descendantTokens =
      (definition.children.take body.index ++ body.children.take close.index).flatMap leaves ++ close :: rest := by
  have place := slot_of_closingBrace? isBody shut
  have bodyShape := shape.child (List.mem_of_getElem? place.body_eq)
  obtain ⟨member, isBrace⟩ := mem_of_closingBrace? shut
  have known := (brace_of_closingBrace? shut).1
  have bodyLeaves : body.leaves = body.descendantTokens := leaves_of_inner (inner_of_child known bodyShape)
  have closeLeaves : close.leaves = [close] := leaves_of_leaf (isToken_of_isBrace isBrace) (children_of_isBrace isBrace)
  refine ⟨(body.children.drop (close.index + 1)).flatMap leaves ++
    (definition.children.drop (body.index + 1)).flatMap leaves, ?_⟩
  rw [descendantTokens_split (List.mem_of_find?_eq_some isBody), bodyLeaves, descendantTokens_split member, closeLeaves]
  simp only [List.flatMap_append, List.append_assoc, List.cons_append, List.nil_append]

/-- The fix asks for the first token among the children before the brace. -/
theorem preceded_iff (valid : definition.Valid) (shape : definition.tree.WellFormed)
    (isBody : definition.classBody? = some body) (shut : closingBrace? body = some close) :
    Preceded definition close ↔
      (firstTokenOf? (definition.tree.children.take body.index ++ body.tree.children.take close.index)).isSome := by
  obtain ⟨rest, split⟩ := descendantTokens_eq_append shape isBody shut
  have trees : definition.tree.children.take body.index ++ body.tree.children.take close.index =
      (definition.children.take body.index ++ body.children.take close.index).map Node.tree := by
    rw [List.map_append, List.map_take, List.map_take, map_tree_children, map_tree_children]
  rw [trees, Option.isSome_iff_ne_none, ne_eq, ← flatMap_leaves_eq_nil, Preceded, split]
  constructor
  · intro ⟨own, earlier⟩ bare
    have once := (pairwise_descendants valid).filter Node.isToken
    rw [← descendantTokens, split, bare, List.nil_append, List.pairwise_cons] at once
    rw [bare, List.nil_append] at earlier
    have again : close ∈ rest := by
      cases earlier with
      | cons _ later => exact later.subset (by simp)
      | cons_cons _ later => exact later.subset (by simp)
    exact once.1 close again (List.prefix_refl _)
  · intro some
    obtain ⟨token, member⟩ := List.exists_mem_of_ne_nil _ some
    exact ⟨token, (List.singleton_sublist.mpr member).append (List.singleton_sublist.mpr (by simp))⟩

def entry (field : String) : String :=
  field ++ ": \x7b" ++ field ++ "\x7d"

def template (fields : List String) : String :=
  "\\n".intercalate (fields.map entry)

/-- How a block around one statement reads: on one line, or over several lines at an indentation. -/
def blockText (statement : String) : Option String → String
  | none => " \x7b " ++ statement ++ " \x7d"
  | some indent =>
    "\n" ++ indent ++ "\x7b" ++ "\n" ++ indent ++ Build.indentUnit ++ statement ++ "\n" ++ indent ++ "\x7d"

/-- How the method reads, with the trivia in front of it. -/
def methodText (fields : List String) (layout : Layout) : String :=
  layout.trivia ++ "public override string ToString()" ++
    blockText ("return $\"" ++ template fields ++ "\";") layout.indent

def fieldTokens (part : String × String) : List Tree :=
  [token .literalToken "" part.1, token .punctuation "" "\x7b", token .identifier "" part.2,
    token .punctuation "" "\x7d"]

def braceTrivia : Option String → String
  | none => " "
  | some indent => "\n" ++ indent

def statementTrivia : Option String → String
  | none => " "
  | some indent => "\n" ++ indent ++ Build.indentUnit

def methodTokens (fields : List String) (layout : Layout) : List Tree :=
  [token .keyword layout.trivia "public", token .keyword " " "override", token .predefinedType " " "string",
      token .identifier " " "ToString", token .punctuation "" "(", token .punctuation "" ")",
      token .punctuation (braceTrivia layout.indent) "\x7b", token .keyword (statementTrivia layout.indent) "return",
      token .punctuation " " "$\""] ++
    (labels fields).flatMap fieldTokens ++
    [token .punctuation "" "\"", token .punctuation "" ";", token .punctuation (braceTrivia layout.indent) "\x7d"]

theorem tokensOf_interpolation {parts : List (String × String)} (labelled : ∀ part ∈ parts, part.1 ≠ "") :
    tokensOf (parts.flatMap Build.interpolation) = parts.flatMap fieldTokens := by
  induction parts with
  | nil => rfl
  | cons part rest ih =>
    obtain ⟨first, others⟩ := List.forall_mem_cons.mp labelled
    rw [List.flatMap_cons, List.flatMap_cons, tokensOf_append, ih others]
    simp [Build.interpolation, first, fieldTokens, tokensOf, tokens, Build.token, Build.identifier, Kind.isToken]

theorem label_ne_empty {fields : List String} {part : String × String} (member : part ∈ labels fields) : part.1 ≠ "" := by
  obtain ⟨index, inside, rfl⟩ := List.mem_mapIdx.mp member
  simp

theorem tokens_listingMethod (fields : List String) (layout : Layout) :
    (listingMethod fields layout).tokens = methodTokens fields layout := by
  have pieces := tokensOf_interpolation fun part (member : part ∈ labels fields) => label_ne_empty member
  cases indent : layout.indent <;>
    simp [listingMethod, indent, Build.method, Build.modifiers, Build.block, Build.returnStatement,
      Build.interpolatedString, Build.token, Build.spaced, tokens, tokensOf, tokensOf_append, pieces, withLeading,
      withLeadingFirst, firstToken?, firstTokenOf?, Kind.isToken, toStringName, methodTokens, braceTrivia,
      statementTrivia]

theorem labels_cons (field : String) (rest : List String) :
    labels (field :: rest) = (field ++ ": ", field) :: rest.map fun other => ("\\n" ++ (other ++ ": "), other) := by
  rw [labels, List.mapIdx_cons]
  congr 1
  apply List.ext_getElem <;> simp [String.append_assoc]

theorem texts_fieldTokens (label field : String) :
    texts (fieldTokens (label, field)) = label ++ ("\x7b" ++ field ++ "\x7d") := by
  simp [fieldTokens, texts, Tree.text, Kind.isToken, String.append_assoc]

theorem entry_eq (field : String) : entry field = field ++ ": " ++ ("\x7b" ++ field ++ "\x7d") := by
  apply String.toList_inj.mp
  simp [entry]

theorem texts_fields (fields : List String) : texts ((labels fields).flatMap fieldTokens) = template fields := by
  cases fields with
  | nil => rfl
  | cons field rest =>
    rw [labels_cons, template, List.map_cons, List.flatMap_cons, texts_append, texts_fieldTokens, ← entry_eq]
    -- From the second field on, a label starts with the line break that follows the entry before it.
    induction rest generalizing field with
    | nil => simp [texts]
    | cons next rest ih =>
      rw [List.map_cons, List.flatMap_cons, texts_append, texts_fieldTokens, List.map_cons, String.intercalate_cons_cons,
        ← ih next, entry_eq next]
      simp only [String.append_assoc]

theorem texts_methodTokens (fields : List String) (layout : Layout) :
    texts (methodTokens fields layout) = methodText fields layout := by
  rw [methodTokens, texts_append, texts_append, texts_fields, methodText]
  apply String.toList_inj.mp
  cases layout.indent <;>
    simp [texts, Tree.text, Kind.isToken, blockText, braceTrivia, statementTrivia]

theorem placedMethod_of_preceded (valid : definition.Valid) (shape : definition.tree.WellFormed)
    (isBody : definition.classBody? = some body) (shut : closingBrace? body = some close)
    (preceded : Preceded definition close) :
    placedMethod definition body close =
      listingMethod definition.fieldNames (Layout.choose definition.classMembers close) :=
  if_pos ((preceded_iff valid shape isBody shut).mp preceded)

/-- A file into which tokens have been put. All others stay as they are. -/
structure Spliced (old new : Tree) (front added back : List Tree) : Prop where
  old_tokens : old.tokens = front ++ back
  new_tokens : new.tokens = front ++ (added ++ back)
  old_text : old.text = texts front ++ texts back
  new_text : new.text = texts front ++ (texts added ++ texts back)

variable {tree : Tree} {node : Node} {receiver : Receiver}

theorem path_closingBrace (isBody : definition.classBody? = some body) (shut : closingBrace? body = some close) :
    close.path = definition.path ++ [body.index] ++ [close.index] := by
  have bodyPath := (Node.mem_children (List.mem_of_find?_eq_some isBody)).2.1
  have closePath := (Node.mem_children (mem_of_closingBrace? shut).1).2.1
  rw [closePath, bodyPath]

theorem holds_closingBrace (found : Unconverted tree node receiver) (isBody : receiver.definition.classBody? = some body)
    (shut : closingBrace? body = some close) : tree.Holds close := by
  obtain ⟨sameRoot, valid, _⟩ := found.definition_eq
  have outer : tree.Holds body := Holds.child ⟨sameRoot, valid⟩ (List.mem_of_find?_eq_some isBody)
  exact outer.child (mem_of_closingBrace? shut).1

/-- The method comes right before the brace and the trivia of the brace. -/
theorem spliced_converted (found : Unconverted tree node receiver) (shape : tree.WellFormed)
    (isBody : receiver.definition.classBody? = some body) (shut : closingBrace? body = some close) :
    Spliced tree (tree.replaceAt receiver.definition.path (converted receiver.definition body close))
      (tree.tokensBefore close.path) (placedMethod receiver.definition body close).tokens
      (close.tree :: tree.tokensAfter close.path) := by
  have held := holds_closingBrace found isBody shut
  have kind := found.definition_eq.2.2
  have inserted := inserted_of_ok found shape isBody shut
  obtain ⟨known, isBrace⟩ := brace_of_closingBrace? shut
  have leaf : close.tree.tokens = [close.tree] := tokens_leaf (isToken_of_isBrace isBrace)
  have old : tree.tokens = tree.tokensBefore close.path ++ close.tree :: tree.tokensAfter close.path := by
    have whole := tokens_replaceAt shape held.present close.tree
    rwa [replaceAt_self held.present, leaf, List.singleton_append] at whole
  have new := tokens_insert shape inserted.present known (placedMethod receiver.definition body close)
  rw [← inserted.later_eq, ← path_closingBrace isBody shut, leaf, List.singleton_append] at new
  have fixedShape := shape.replaceAt found.present
    (replaces_converted (found.sound shape) kind (slot_of_closingBrace? isBody shut)).shape
  refine ⟨old, new, ?_, ?_⟩
  · rw [← texts_append, ← old, texts_tokens shape]
  · rw [← texts_append, ← texts_append, ← new, texts_tokens fixedShape]

/-- The tokens in front of a node take up the bytes in front of it. -/
theorem size_tokensBefore (held : tree.Holds node) (shape : tree.WellFormed) :
    (texts (tree.tokensBefore node.path)).utf8ByteSize = node.fullSpan.start := by
  rw [texts_tokensBefore shape held.present, size_textBefore shape held.present, ← held.root_eq]
  rfl

end Fix

/-- The whole effect on the text when a class gets its conversion: if any of the class stands before the closing brace,
the method is written there and nothing else changes. -/
theorem fixIn_spliced {rules : List Rule} {tree fixed : Tree} {defect : Defect} (shape : tree.WellFormed)
    (reported : defect ∈ detect rules tree) (rule : defect.rule = .missingToString)
    (done : defect.fixIn tree = .ok fixed) :
    ∃ receiver body close, defect.anchor.receiver? = some receiver ∧ receiver.definition.classBody? = some body ∧
      Fix.closingBrace? body = some close ∧
      (Fix.Preceded receiver.definition close →
        ∃ front added back, Fix.Spliced tree fixed front added (close.tree :: back) ∧
          (Tree.texts front).utf8ByteSize = close.fullSpan.start ∧
          Tree.texts added = Fix.methodText receiver.definition.fieldNames
            (Fix.Layout.choose receiver.definition.classMembers close)) := by
  rcases detect_cases reported with ⟨_, node, name, _, rfl⟩ | ⟨node, receiver, found, rfl⟩
  · cases rule
  rw [FixState.fixIn_missingToString] at done
  obtain ⟨body, close, isBody, shut, rfl⟩ := (Fix.missingToString_eq_ok found shape).mp done
  refine ⟨receiver, body, close, found.receiver_eq, isBody, shut, ?_⟩
  intro preceded
  have spliced := Fix.spliced_converted found shape isBody shut
  rw [Fix.placedMethod_of_preceded found.definition_eq.2.1 (found.sound shape) isBody shut preceded,
    Fix.tokens_listingMethod] at spliced
  have start := Fix.size_tokensBefore (Fix.holds_closingBrace found isBody shut) shape
  exact ⟨_, _, _, spliced, start, Fix.texts_methodTokens _ _⟩

def twoFields : Tree :=
  let field (name : String) : Tree :=
    .node .fieldDeclaration
      [.node .variableDeclaration
        [.token .predefinedType "\n  " "int", .node .variableDeclarator [.token .identifier " " name]],
        .token .punctuation "" ";"]
  .node .compilationUnit
    [.node .variableDeclaration
      [.token .implicitType "" "var",
        .node .variableDeclarator
          [.token .identifier " " "p", .token .punctuation " " "=",
            .node .objectCreation [.token .keyword " " "new", .token .identifier " " "P"]]],
      .node .memberAccess [.token .identifier "\n" "p", .token .punctuation "" ".", .token .identifier "" "ToString"],
      .node .classDeclaration
        [.token .keyword "\n" "class", .token .identifier " " "P",
          .node .declarationList
            [.token .punctuation " " "\x7b", field "x", field "y", .token .comment " " "/* é */",
              .token .punctuation "\n" "\x7d"]]]

theorem fixIn_spliced_twoFields :
    ∃ defect fixed receiver body close front added back, defect ∈ detect Rule.all twoFields ∧
      defect.fixIn twoFields = .ok fixed ∧ defect.anchor.receiver? = some receiver ∧
      receiver.definition.classBody? = some body ∧ Fix.closingBrace? body = some close ∧
      Fix.Preceded receiver.definition close ∧ Fix.Spliced twoFields fixed front added (close.tree :: back) ∧
      (Tree.texts front).utf8ByteSize = close.fullSpan.start ∧
      Tree.texts added = "\n\n  public override string ToString()\n  \x7b\n" ++
        "      return $\"x: \x7bx\x7d\\ny: \x7by\x7d\";\n  \x7d" := by
  have shape : twoFields.WellFormed := by
    simp [twoFields, Tree.WellFormed, Tree.AllWellFormed, Kind.isToken]
  have computed : ((detect Rule.all twoFields)[0]?.map fun defect =>
      (defect.rule, (defect.fixIn twoFields).toOption.isSome)) = some (.missingToString, true) := by
    decide +kernel
  have chosen : ((detect Rule.all twoFields)[0]?.bind fun defect => defect.anchor.receiver?.bind fun receiver =>
      receiver.definition.classBody?.bind fun body => (Fix.closingBrace? body).map fun close =>
        ((Tree.firstTokenOf? (receiver.definition.tree.children.take body.index ++
          body.tree.children.take close.index)).isSome,
          Fix.methodText receiver.definition.fieldNames (Fix.Layout.choose receiver.definition.classMembers close))) =
      some (true, "\n\n  public override string ToString()\n  \x7b\n" ++
        "      return $\"x: \x7bx\x7d\\ny: \x7by\x7d\";\n  \x7d") := by
    decide +kernel
  obtain ⟨defect, fixed, known, rule, done⟩ := exists_fixed computed
  have reported := List.mem_of_getElem? known
  obtain ⟨receiver, body, close, reached, isBody, shut, spliced⟩ := fixIn_spliced shape reported rule done
  rw [known, Option.bind_some, reached, Option.bind_some, isBody, Option.bind_some, shut, Option.map_some,
    Option.some_inj, Prod.mk.injEq] at chosen
  have rooted : defect.anchor.root = twoFields := by
    rcases detect_cases reported with ⟨_, _, _, found, rfl⟩ | ⟨_, _, found, rfl⟩ <;> exact found.root_eq
  obtain ⟨sameRoot, valid, _⟩ := Node.receiver?_definition reached
  have sound := (sameRoot.trans rooted ▸ shape).get? valid
  have preceded := (Fix.preceded_iff valid sound isBody shut).mpr chosen.1
  obtain ⟨front, added, back, file, start, text⟩ := spliced preceded
  exact ⟨defect, fixed, receiver, body, close, front, added, back, reported, done, reached, isBody, shut, preceded,
    file, start, text.trans chosen.2⟩

end TreeLint
