import TreeLint.Proofs.Bare
import TreeLint.Proofs.ClassLayout
import TreeLint.Proofs.InsertedMethod

/-! What fixes do to comments. A comment is a token among the others. Adding a method loses none, but the method may
come right behind one that reaches to the end of its line, and then it is part of the comment unless it starts a new
line. Renaming a declaration loses the comments in the pieces that it does not write again, and no others. -/

namespace TreeLint

namespace Tree

def commentsOf (leaves : List Tree) : List String :=
  (leaves.filter fun leaf => leaf.kind = .comment).map spelling

def comments (tree : Tree) : List String :=
  commentsOf tree.tokens

@[simp] theorem commentsOf_append (first second : List Tree) :
    commentsOf (first ++ second) = commentsOf first ++ commentsOf second := by
  simp [commentsOf]

theorem commentsOf_eq_nil {leaves : List Tree} : commentsOf leaves = [] ↔ ∀ leaf ∈ leaves, leaf.kind ≠ .comment := by
  simp [commentsOf, List.filter_eq_nil_iff]

theorem tokensOf_eq_flatMap (trees : List Tree) : tokensOf trees = trees.flatMap tokens := by
  induction trees with
  | nil => rfl
  | cons tree rest ih => rw [tokensOf, ih, List.flatMap_cons]

theorem commentsOf_tokensOf (trees : List Tree) : commentsOf (tokensOf trees) = trees.flatMap comments := by
  rw [tokensOf_eq_flatMap, commentsOf, List.filter_flatMap, List.map_flatMap]
  rfl

theorem comments_inner {tree : Tree} (inner : tree.kind.isToken = false) :
    tree.comments = tree.children.flatMap comments := by
  rw [comments, tokens_inner inner, commentsOf_tokensOf]

theorem comments_node {kind : Kind} (inner : kind.isToken = false) (children : List Tree) :
    (node kind children).comments = children.flatMap comments :=
  comments_inner inner

theorem comments_token {kind : Kind} (isToken : kind.isToken = true) (leading text : String) :
    (token kind leading text).comments = if kind = .comment then [text] else [] := by
  have alone : (token kind leading text).tokens = [token kind leading text] := tokens_leaf isToken
  rw [comments, alone, commentsOf]
  by_cases note : kind = .comment <;> simp [note, spelling]

/-- Comments are not trivia. -/
theorem comments_bare {tree : Tree} (shape : tree.WellFormed) : tree.bare.comments = tree.comments := by
  induction tree with
  | token kind leading text =>
    have isToken : kind.isToken = true := shape
    rw [bare, comments_token isToken, comments_token isToken]
  | node kind children ih =>
    obtain ⟨inner, below⟩ := (wellFormed_node kind children).mp shape
    rw [bare_node, comments_node inner, comments_node inner, List.flatMap_map]
    exact List.flatMap_congr fun child member => ih child member (below child member)

theorem comments_withLeading {tree : Tree} (shape : tree.WellFormed) (trivia : String) :
    (tree.withLeading trivia).comments = tree.comments := by
  rw [← comments_bare (shape.withLeading trivia), bare_withLeading shape, comments_bare shape]

/-- A negated use was no comment and is none. -/
theorem comments_negateUses {tree : Tree} (shape : tree.WellFormed) (old new : String) :
    (tree.negateUses old new).comments = tree.comments := by
  induction tree with
  | token kind leading text =>
    have isToken : kind.isToken = true := shape
    by_cases used : (token kind leading text).isUse old
    · have name : kind = .identifier := kind_of_isUse used
      rw [negateUses_of_isUse used, comments, tokens_negation, comments_token isToken, name]
      rfl
    · rw [negateUses_token used]
  | node kind children ih =>
    obtain ⟨inner, below⟩ := (wellFormed_node kind children).mp shape
    rw [negateUses_node, comments_node inner, comments_node inner, List.flatMap_map]
    exact List.flatMap_congr fun child member => ih child member (below child member)

theorem comments_replaceAt {tree found : Tree} {path : List Nat} (shape : tree.WellFormed)
    (present : tree.get? path = some found) (replacement : Tree) :
    (tree.replaceAt path replacement).comments = commentsOf (tree.tokensBefore path) ++
      (replacement.comments ++ commentsOf (tree.tokensAfter path)) := by
  rw [comments, tokens_replaceAt shape present, commentsOf_append, commentsOf_append, comments]

/-- A comment that reaches to the end of its line. -/
def isLineComment (leaf : Tree) : Bool :=
  leaf.kind = .comment && "//".toList.isPrefixOf leaf.spelling.toList

end Tree

namespace Fix
open TreeLint.Tree

variable {definition body close : Node}

def placedLayout (definition body close : Node) : Layout :=
  { Layout.choose definition.classMembers close with
    trivia :=
      if (firstTokenOf? (definition.tree.children.take body.index ++ body.tree.children.take close.index)).isSome then
        (Layout.choose definition.classMembers close).trivia
      else definition.tree.leading }

theorem placedMethod_eq (definition body close : Node) :
    placedMethod definition body close = listingMethod definition.fieldNames (placedLayout definition body close) := by
  rw [placedMethod, placedLayout]
  split <;> rfl

theorem leading_listingMethod (fields : List String) (layout : Layout) :
    (listingMethod fields layout).leading = layout.trivia :=
  rfl

/-- A method starts a new line if the last member does, or the brace where there is no member. -/
theorem newline_choose (members : List Node) (close : Node) :
    '\n' ∈ (Layout.choose members close).trivia.toList ↔ '\n' ∈ (members.getLast?.getD close).tree.leading.toList := by
  rw [Layout.choose]
  cases members.getLast? with
  | none =>
    by_cases feed : '\n' ∈ close.tree.leading.toList <;> simp [indentation?, feed, Layout.oneLine]
  | some last =>
    by_cases feed : '\n' ∈ last.tree.leading.toList <;> simp [indentation?, feed, Layout.oneLine]

/-- The line that a new method follows starts with the last member of the class, or with the brace if there is no
member. A method that comes first in its class takes the place of the brace. -/
def StartsLine (definition close : Node) : Prop :=
  (Preceded definition close ∧ '\n' ∈ (definition.classMembers.getLast?.getD close).tree.leading.toList) ∨
    (¬ Preceded definition close ∧ '\n' ∈ close.tree.leading.toList)

theorem newline_placedMethod (valid : definition.Valid) (shape : definition.tree.WellFormed)
    (isBody : definition.classBody? = some body) (shut : closingBrace? body = some close) :
    '\n' ∈ (placedMethod definition body close).leading.toList ↔ StartsLine definition close := by
  have asked := preceded_iff valid shape isBody shut
  rw [placedMethod_eq, leading_listingMethod, placedLayout, StartsLine]
  by_cases preceded : Preceded definition close
  · simp only [asked.mp preceded, if_true, newline_choose, preceded, true_and, not_true_eq_false, false_and, or_false]
  · have bare := mt asked.mpr preceded
    obtain ⟨known, isBrace⟩ := brace_of_closingBrace? shut
    rw [leading_of_bare (slot_of_closingBrace? isBody shut) shape known isBrace (by simpa using bare), if_neg bare]
    simp only [preceded, false_and, not_false_eq_true, true_and, false_or]

/-- A method right behind a comment that does not end before it. -/
def Swallowed (front : List Tree) (method : Tree) : Prop :=
  (∃ note, front.getLast? = some note ∧ note.isLineComment) ∧ '\n' ∉ method.leading.toList

variable {tree : Tree} {node : Node} {receiver : Receiver}

theorem get?_converted (found : Unconverted tree node receiver) (shape : tree.WellFormed)
    (isBody : receiver.definition.classBody? = some body) (shut : closingBrace? body = some close) :
    (tree.replaceAt receiver.definition.path (converted receiver.definition body close)).get? close.path =
      some (placedMethod receiver.definition body close) := by
  have inserted := inserted_of_ok found shape isBody shut
  rw [inserted.later_eq, path_closingBrace isBody shut]
  apply get?_concat (get?_replaceAt_self inserted.present _)
  rw [children_insertChild_of_le inserted.inside, List.getElem?_append_right (List.length_take_le ..),
    List.length_take, Nat.min_eq_left inserted.inside, Nat.sub_self, List.getElem?_cons_zero]

end Fix

/-- A new method is part of a comment exactly if it comes right behind a line comment and does not start a line. -/
theorem fixIn_swallowed_iff {rules : List Rule} {tree fixed : Tree} {defect : Defect} (shape : tree.WellFormed)
    (reported : defect ∈ detect rules tree) (rule : defect.rule = .missingToString)
    (done : defect.fixIn tree = .ok fixed) :
    ∃ receiver body close method, defect.anchor.receiver? = some receiver ∧
      receiver.definition.classBody? = some body ∧ Fix.closingBrace? body = some close ∧
      fixed.get? close.path = some method ∧
      Fix.Spliced tree fixed (tree.tokensBefore close.path) method.tokens
        (close.tree :: tree.tokensAfter close.path) ∧
      (Fix.Swallowed (tree.tokensBefore close.path) method ↔
        (∃ note, (tree.tokensBefore close.path).getLast? = some note ∧ note.isLineComment) ∧
          ¬ Fix.StartsLine receiver.definition close) := by
  rcases detect_cases reported with ⟨_, node, name, _, rfl⟩ | ⟨node, receiver, found, rfl⟩
  · cases rule
  rw [FixState.fixIn_missingToString] at done
  obtain ⟨body, close, isBody, shut, rfl⟩ := (Fix.missingToString_eq_ok found shape).mp done
  refine ⟨receiver, body, close, _, found.receiver_eq, isBody, shut, Fix.get?_converted found shape isBody shut,
    Fix.spliced_converted found shape isBody shut, ?_⟩
  rw [Fix.Swallowed, Fix.newline_placedMethod found.definition_eq.2.1 (found.sound shape) isBody shut]

def annotated (trivia : String) : Tree :=
  .node .compilationUnit
    [.node .variableDeclaration
      [.token .implicitType "" "var",
        .node .variableDeclarator
          [.token .identifier " " "p", .token .punctuation " " "=",
            .node .objectCreation [.token .keyword " " "new", .token .identifier " " "P"]]],
      .node .memberAccess [.token .identifier "\n" "p", .token .punctuation "" ".", .token .identifier "" "ToString"],
      .node .classDeclaration
        [.token .keyword "\n" "class", .token .identifier " " "P",
          .node .declarationList
            [.token .punctuation " " "\x7b",
              .node .fieldDeclaration
                [.node .variableDeclaration
                  [.token .predefinedType trivia "int", .node .variableDeclarator [.token .identifier " " "x"]],
                  .token .punctuation "" ";"],
              .token .comment " " "// note", .token .punctuation "\n" "\x7d"]]]

theorem fixIn_swallowed_iff_annotated :
    ∃ defect fixed receiver body close method, defect ∈ detect Rule.all (annotated "\n  ") ∧
      defect.fixIn (annotated "\n  ") = .ok fixed ∧ defect.anchor.receiver? = some receiver ∧
      receiver.definition.classBody? = some body ∧ Fix.closingBrace? body = some close ∧
      fixed.get? close.path = some method ∧
      (∃ note, ((annotated "\n  ").tokensBefore close.path).getLast? = some note ∧ note.isLineComment) ∧
      Fix.StartsLine receiver.definition close ∧
      ¬ Fix.Swallowed ((annotated "\n  ").tokensBefore close.path) method := by
  have shape : (annotated "\n  ").WellFormed := by
    simp [annotated, Tree.WellFormed, Tree.AllWellFormed, Kind.isToken]
  have computed : ((detect Rule.all (annotated "\n  "))[0]?.map fun defect =>
      (defect.rule, (defect.fixIn (annotated "\n  ")).toOption.isSome)) = some (.missingToString, true) := by
    decide +kernel
  obtain ⟨defect, fixed, known, rule, done⟩ := exists_fixed computed
  have reported := List.mem_of_getElem? known
  obtain ⟨receiver, body, close, method, reached, isBody, shut, present, _, swallowed⟩ :=
    fixIn_swallowed_iff shape reported rule done
  have shown : ((detect Rule.all (annotated "\n  "))[0]?.bind fun defect => defect.anchor.receiver?.bind fun receiver =>
      receiver.definition.classBody?.bind fun body => (Fix.closingBrace? body).bind fun close =>
        ((defect.fixIn (annotated "\n  ")).toOption.bind fun fixed => fixed.get? close.path).map fun method =>
          (((annotated "\n  ").tokensBefore close.path).getLast?.any Tree.isLineComment,
            decide ('\n' ∈ method.leading.toList))) = some (true, true) := by
    decide +kernel
  rw [known, Option.bind_some, reached, Option.bind_some, isBody, Option.bind_some, shut, Option.bind_some, done,
    Except.toOption, Option.bind_some, present, Option.map_some, Option.some_inj, Prod.mk.injEq, decide_eq_true_eq,
    Option.any_eq_true] at shown
  have kept : ¬ Fix.Swallowed ((annotated "\n  ").tokensBefore close.path) method := fun lost => lost.2 shown.2
  refine ⟨defect, fixed, receiver, body, close, method, reported, done, reached, isBody, shut, present, shown.1, ?_,
    kept⟩
  by_contra same
  exact kept (swallowed.mpr ⟨shown.1, same⟩)

/-- Here the field does not start a line, and neither does the method, which so becomes part of the comment. -/
theorem fixIn_swallowed_annotated :
    ∃ defect fixed receiver body close method, (annotated " ").WellFormed ∧ defect ∈ detect Rule.all (annotated " ") ∧
      defect.rule = .missingToString ∧ defect.fixIn (annotated " ") = .ok fixed ∧
      defect.anchor.receiver? = some receiver ∧ receiver.definition.classBody? = some body ∧
      Fix.closingBrace? body = some close ∧ fixed.get? close.path = some method ∧
      Fix.Spliced (annotated " ") fixed ((annotated " ").tokensBefore close.path) method.tokens
        (close.tree :: (annotated " ").tokensAfter close.path) ∧
      Fix.Swallowed ((annotated " ").tokensBefore close.path) method ∧
      fixed.text = "var p = new P\np.ToString\nclass P \x7b int x; // note public override string ToString() " ++
        "\x7b return $\"x: \x7bx\x7d\"; \x7d\n\x7d" := by
  have shape : (annotated " ").WellFormed := by
    simp [annotated, Tree.WellFormed, Tree.AllWellFormed, Kind.isToken]
  have computed : ((detect Rule.all (annotated " "))[0]?.map fun defect =>
      (defect.rule, (defect.fixIn (annotated " ")).toOption.isSome)) = some (.missingToString, true) := by
    decide +kernel
  obtain ⟨defect, fixed, known, rule, done⟩ := exists_fixed computed
  have reported := List.mem_of_getElem? known
  have shown : ((detect Rule.all (annotated " "))[0]?.bind fun defect => defect.anchor.receiver?.bind fun receiver =>
      receiver.definition.classBody?.bind fun body => (Fix.closingBrace? body).bind fun close =>
        (defect.fixIn (annotated " ")).toOption.bind fun fixed => (fixed.get? close.path).map fun method =>
          (((annotated " ").tokensBefore close.path).getLast?.any Tree.isLineComment,
            decide ('\n' ∈ method.leading.toList), fixed.text)) =
      some (true, false, "var p = new P\np.ToString\nclass P \x7b int x; // note public override string ToString() " ++
        "\x7b return $\"x: \x7bx\x7d\"; \x7d\n\x7d") := by
    decide +kernel
  rcases detect_cases reported with ⟨_, node, name, _, rfl⟩ | ⟨node, receiver, found, rfl⟩
  · cases rule
  have direct := done
  rw [FixState.fixIn_missingToString] at direct
  obtain ⟨body, close, isBody, shut, rfl⟩ := (Fix.missingToString_eq_ok found shape).mp direct
  have present := Fix.get?_converted found shape isBody shut
  rw [known, Option.bind_some, found.receiver_eq, Option.bind_some, isBody, Option.bind_some, shut, Option.bind_some,
    done, Except.toOption, Option.bind_some, present, Option.map_some, Option.some_inj, Prod.mk.injEq, Prod.mk.injEq,
    decide_eq_false_iff_not, Option.any_eq_true] at shown
  exact ⟨_, _, receiver, body, close, _, shape, reported, rfl, done, found.receiver_eq, isBody, shut, present,
    Fix.spliced_converted found shape isBody shut, ⟨shown.1, shown.2.1⟩, shown.2.2⟩

namespace Fix
open TreeLint.Tree

theorem comments_listingMethod (fields : List String) (layout : Layout) :
    (listingMethod fields layout).comments = [] := by
  have pieces : commentsOf ((labels fields).flatMap fieldTokens) = [] := by
    apply commentsOf_eq_nil.mpr
    intro leaf member
    obtain ⟨part, _, inside⟩ := List.mem_flatMap.mp member
    simp only [fieldTokens, List.mem_cons, List.not_mem_nil, or_false] at inside
    rcases inside with rfl | rfl | rfl | rfl <;> simp [kind]
  rw [comments, tokens_listingMethod, methodTokens, commentsOf_append, commentsOf_append, pieces]
  rfl

variable {tree fixed : Tree} {node : Node} {name : String} {receiver : Receiver}

theorem comments_converted (found : Unconverted tree node receiver) (shape : tree.WellFormed)
    (done : missingToString tree node.span = .ok fixed) : fixed.comments = tree.comments := by
  obtain ⟨body, close, isBody, shut, rfl⟩ := (missingToString_eq_ok found shape).mp done
  have spliced := spliced_converted found shape isBody shut
  have none : commentsOf (placedMethod receiver.definition body close).tokens = [] := by
    rw [placedMethod_eq]
    exact comments_listingMethod _ _
  rw [comments, spliced.new_tokens, comments, spliced.old_tokens, commentsOf_append, commentsOf_append,
    commentsOf_append, none, List.nil_append]

section
variable {declarator value : Node} (first : node.firstDeclarator? = some declarator)
  (initial : declarator.initializer? = some value)

include first initial

/-- The comments of a declaration: some in front of its first declarator, in the declarator some around the initial value
and some in it, and some behind the declarator. -/
theorem comments_declaration (sound : node.tree.WellFormed) :
    node.tree.comments = (node.tree.children.take declarator.index).flatMap comments ++
      (((declarator.tree.children.take value.index).flatMap comments ++
        (value.tree.comments ++ (declarator.tree.children.drop (value.index + 1)).flatMap comments)) ++
      (node.tree.children.drop (declarator.index + 1)).flatMap comments) := by
  have outer := (Node.mem_children (List.mem_of_find?_eq_some first)).2.2
  have inner := (Node.mem_children (Node.mem_of_initializer? initial)).2.2
  have declaratorShape := sound.child (List.mem_of_getElem? outer)
  rw [comments_inner (inner_of_child outer sound)]
  conv => lhs; rw [split_at outer]
  rw [List.flatMap_append, List.flatMap_cons, comments_inner (inner_of_child inner declaratorShape)]
  conv => lhs; rw [split_at inner]
  rw [List.flatMap_append, List.flatMap_cons]

theorem comments_discarded :
    (∀ part ∈ discarded node, part.tree.comments = []) ↔
      (node.tree.children.take declarator.index).flatMap comments = [] ∧
        (declarator.tree.children.take value.index).flatMap comments = [] ∧
          (declarator.tree.children.drop (value.index + 1)).flatMap comments = [] := by
  rw [discarded_eq first initial, List.eraseIdx_eq_take_drop_succ]
  simp only [← Node.map_tree_children, ← List.map_take, ← List.map_drop, List.flatMap_eq_nil_iff, List.forall_mem_map,
    List.forall_mem_append]

end

theorem comments_renamed {value : Tree} (shape : value.WellFormed) (declaration : Tree) (new trivia : String) :
    ((declaration.renamed value new).withLeading trivia).comments =
      value.comments ++ declaration.others.flatMap comments := by
  have literal : commentsOf (value.withLeading " ").tokens = value.comments := comments_withLeading shape " "
  rw [comments, tokens_renamed, commentsOf_append, commentsOf_append, literal, commentsOf_tokensOf]
  rfl

/-- What is left when three pieces of a list are taken out. -/
private theorem kept_iff {α : Type} (front before early value late behind back : List α) :
    (front ++ ((value ++ behind) ++ back)).Sublist
        (front ++ ((before ++ ((early ++ (value ++ late)) ++ behind)) ++ back)) ∧
      (front ++ ((value ++ behind) ++ back) = front ++ ((before ++ ((early ++ (value ++ late)) ++ behind)) ++ back) ↔
        before = [] ∧ early = [] ∧ late = []) := by
  constructor
  · have inside : value.Sublist (early ++ (value ++ late)) :=
      (List.sublist_append_left value late).trans (List.sublist_append_right early _)
    have whole := (inside.append_right behind).trans (List.sublist_append_right before _)
    exact (whole.append_right back).append_left front
  · constructor
    · intro same
      have lengths := congrArg List.length same
      simp only [List.length_append] at lengths
      refine ⟨List.eq_nil_of_length_eq_zero ?_, List.eq_nil_of_length_eq_zero ?_, List.eq_nil_of_length_eq_zero ?_⟩ <;>
        omega
    · rintro ⟨rfl, rfl, rfl⟩
      simp only [List.nil_append, List.append_nil]

/-- Of the comments those are lost that are in pieces left out. -/
theorem comments_of_ok (found : Negated tree node name) (shape : tree.WellFormed)
    (done : negatedName tree node.span = .ok fixed) :
    fixed.comments.Sublist tree.comments ∧
      (fixed.comments = tree.comments ↔ ∀ part ∈ discarded node, part.tree.comments = []) := by
  obtain ⟨_, value, literal, _, rfl⟩ := (negatedName_eq_ok found shape).mp done
  obtain ⟨declarator, initial, first, initialized, _, rfl⟩ := nodes_of_literal? literal
  have sound := found.sound shape
  have valueShape := sound.literal? literal
  have changedShape := shape.replaceAt found.present (replaces_renamed found shape literal).shape
  have old := comments_replaceAt shape found.present node.tree
  rw [replaceAt_self found.present, comments_declaration first initialized sound] at old
  have retained : node.tree.others = node.tree.children.drop (declarator.index + 1) := by
    rw [others, index_firstDeclarator? first]
  rw [renamedAt, comments_negateUses changedShape, comments_replaceAt shape found.present, comments_renamed valueShape,
    retained, old, comments_discarded first initialized]
  exact kept_iff ..

end Fix

/-- Fixing adds no comment and keeps the order of all. It loses the comments that are in the pieces of a declaration
which are not written again, and only those. -/
theorem fixIn_comments {rules : List Rule} {tree fixed : Tree} {defect : Defect} (shape : tree.WellFormed)
    (reported : defect ∈ detect rules tree) (done : defect.fixIn tree = .ok fixed) :
    fixed.comments.Sublist tree.comments ∧
      (fixed.comments = tree.comments ↔
        (defect.rule = .negatedName → ∀ part ∈ Fix.discarded defect.anchor, part.tree.comments = [])) := by
  rcases detect_cases reported with ⟨_, node, name, found, rfl⟩ | ⟨node, receiver, found, rfl⟩
  · rw [FixState.fixIn_negatedName] at done
    obtain ⟨fewer, same⟩ := Fix.comments_of_ok found shape done
    exact ⟨fewer, same.trans ⟨fun none _ => none, fun none => none rfl⟩⟩
  · rw [FixState.fixIn_missingToString] at done
    have same := Fix.comments_converted found shape done
    refine ⟨same ▸ List.Sublist.refl _, iff_of_true same ?_⟩
    intro rule
    cases rule

def remarked (remark : List Tree) : Tree :=
  .node .compilationUnit
    [.token .comment "" "// first",
      .node .variableDeclaration
        ([.token .predefinedType "\n" "bool"] ++ remark ++
          [.node .variableDeclarator
            [.token .identifier " " "notA", .token .punctuation " " "=", .node .literal [.token .keyword " " "true"]],
            .token .comment " " "/* more */"]),
      .token .punctuation "" ";", .token .comment " " "// last"]

theorem fixIn_comments_remarked :
    ∃ defect fixed, defect ∈ detect Rule.all (remarked []) ∧ defect.fixIn (remarked []) = .ok fixed ∧
      (∀ part ∈ Fix.discarded defect.anchor, part.tree.comments = []) ∧
      fixed.comments = (remarked []).comments ∧ (remarked []).comments = ["// first", "/* more */", "// last"] := by
  have shape : (remarked []).WellFormed := by
    simp [remarked, Tree.WellFormed, Tree.AllWellFormed, Kind.isToken]
  have computed : ((detect Rule.all (remarked []))[0]?.map fun defect =>
      (defect.rule, (defect.fixIn (remarked [])).toOption.isSome)) = some (.negatedName, true) := by
    decide +kernel
  obtain ⟨defect, fixed, known, rule, done⟩ := exists_fixed computed
  have reported := List.mem_of_getElem? known
  have shown : ((detect Rule.all (remarked []))[0]?.map fun defect =>
      (Fix.discarded defect.anchor).all fun part => part.tree.comments.isEmpty) = some true := by
    decide +kernel
  rw [known, Option.map_some, Option.some_inj, List.all_eq_true] at shown
  have bare : ∀ part ∈ Fix.discarded defect.anchor, part.tree.comments = [] :=
    fun part member => List.isEmpty_iff.mp (shown part member)
  have kept := (fixIn_comments shape reported done).2.mpr fun _ => bare
  exact ⟨defect, fixed, reported, done, bare, kept, by decide +kernel⟩

/-- A comment between the type and the name is lost. -/
theorem fixIn_uncommented_remarked :
    ∃ defect fixed, (remarked [.token .comment " " "/* type */"]).WellFormed ∧
      defect ∈ detect Rule.all (remarked [.token .comment " " "/* type */"]) ∧
      defect.fixIn (remarked [.token .comment " " "/* type */"]) = .ok fixed ∧
      (remarked [.token .comment " " "/* type */"]).comments = ["// first", "/* type */", "/* more */", "// last"] ∧
      fixed.comments = ["// first", "/* more */", "// last"] := by
  have shape : (remarked [.token .comment " " "/* type */"]).WellFormed := by
    simp [remarked, Tree.WellFormed, Tree.AllWellFormed, Kind.isToken]
  have computed : ((detect Rule.all (remarked [.token .comment " " "/* type */"]))[0]?.map fun defect =>
      (defect.rule, (defect.fixIn (remarked [.token .comment " " "/* type */"])).toOption.isSome)) =
        some (.negatedName, true) := by
    decide +kernel
  obtain ⟨defect, fixed, known, _, done⟩ := exists_fixed computed
  have shown : ((detect Rule.all (remarked [.token .comment " " "/* type */"]))[0]?.bind fun defect =>
      (defect.fixIn (remarked [.token .comment " " "/* type */"])).toOption.map Tree.comments) =
        some ["// first", "/* more */", "// last"] := by
    decide +kernel
  rw [known, Option.bind_some, done, Except.toOption, Option.map_some, Option.some_inj] at shown
  exact ⟨defect, fixed, shape, List.mem_of_getElem? known, done, by decide +kernel, shown⟩

end TreeLint
