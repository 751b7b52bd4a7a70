import TreeLint.Proofs.Rounds
import TreeLint.Proofs.Suppression

/-! The text that the renaming fix writes. The fix exchanges a declaration and then negates the uses of the old name in
the tree that comes out. What both do to the text is said token by token: tokens around the declaration stay, and only
identifiers with the old spelling are written differently. -/

namespace TreeLint

namespace Tree

mutual

theorem texts_tokens {tree : Tree} (shape : tree.WellFormed) : texts tree.tokens = tree.text := by
  cases tree with
  | token kind leading text =>
    have isToken : kind.isToken = true := shape
    simp [tokens, isToken, texts]
  | node kind children =>
    obtain ⟨inner, below⟩ := (wellFormed_node kind children).mp shape
    simp only [tokens, Tree.text, inner, Bool.false_eq_true, if_false]
    exact texts_tokensOf below

theorem texts_tokensOf {trees : List Tree} (shape : ∀ tree ∈ trees, tree.WellFormed) :
    texts (tokensOf trees) = texts trees := by
  cases trees with
  | nil => rfl
  | cons tree rest =>
    obtain ⟨head, tail⟩ := List.forall_mem_cons.mp shape
    rw [tokensOf, texts_append, texts, texts_tokens head, texts_tokensOf tail]

end

theorem tokens_node {kind : Kind} (inner : kind.isToken = false) (children : List Tree) :
    (node kind children).tokens = tokensOf children := by
  simp [tokens, inner]

theorem tokens_inner {tree : Tree} (inner : tree.kind.isToken = false) : tree.tokens = tokensOf tree.children := by
  cases tree with
  | token kind leading text =>
    have notToken : kind.isToken = false := inner
    simp [tokens, tokensOf, notToken]
  | node kind children => exact tokens_node inner children

theorem tokens_leaf {tree : Tree} (isToken : tree.kind.isToken) : tree.tokens = [tree] := by
  cases tree <;> exact if_pos isToken

def tokensBefore (tree : Tree) : List Nat → List Tree
  | [] => []
  | index :: path =>
    tokensOf (tree.children.take index) ++
      match tree.children[index]? with
      | some child => child.tokensBefore path
      | none => []

def tokensAfter (tree : Tree) : List Nat → List Tree
  | [] => []
  | index :: path =>
    (match tree.children[index]? with
      | some child => child.tokensAfter path
      | none => []) ++
      tokensOf (tree.children.drop (index + 1))

@[simp] theorem tokensBefore_nil (tree : Tree) : tree.tokensBefore [] = [] := by
  rw [tokensBefore]

@[simp] theorem tokensAfter_nil (tree : Tree) : tree.tokensAfter [] = [] := by
  rw [tokensAfter]

section
variable {tree child : Tree} {index : Nat} (known : tree.children[index]? = some child)

include known

theorem tokensBefore_cons (path : List Nat) :
    tree.tokensBefore (index :: path) = tokensOf (tree.children.take index) ++ child.tokensBefore path := by
  rw [tokensBefore, known]

theorem tokensAfter_cons (path : List Nat) :
    tree.tokensAfter (index :: path) = child.tokensAfter path ++ tokensOf (tree.children.drop (index + 1)) := by
  rw [tokensAfter, known]

end

section
variable {tree found : Tree} {path : List Nat} (shape : tree.WellFormed) (present : tree.get? path = some found)

include shape present

theorem texts_tokensBefore : texts (tree.tokensBefore path) = tree.textBefore path := by
  induction path generalizing tree with
  | nil => simp [texts]
  | cons index path ih =>
    obtain ⟨child, known, rest⟩ := get?_cons_eq_some.mp present
    rw [tokensBefore_cons known, texts_append, textBefore_cons known, ih (shape.child (List.mem_of_getElem? known)) rest,
      texts_tokensOf fun other member => shape.child (List.mem_of_mem_take member)]

theorem texts_tokensAfter : texts (tree.tokensAfter path) = tree.textAfter path := by
  induction path generalizing tree with
  | nil => simp [texts]
  | cons index path ih =>
    obtain ⟨child, known, rest⟩ := get?_cons_eq_some.mp present
    rw [tokensAfter_cons known, texts_append, textAfter_cons known, ih (shape.child (List.mem_of_getElem? known)) rest,
      texts_tokensOf fun other member => shape.child (List.mem_of_mem_drop member)]

/-- A replacement leaves the tokens around its place. -/
theorem tokens_replaceAt (replacement : Tree) :
    (tree.replaceAt path replacement).tokens = tree.tokensBefore path ++ (replacement.tokens ++ tree.tokensAfter path) := by
  induction path generalizing tree with
  | nil => simp
  | cons index path ih =>
    obtain ⟨child, known, rest⟩ := get?_cons_eq_some.mp present
    rw [replaceAt_cons known, set_split known, tokens_node (inner_of_child known shape), tokensOf_append, tokensOf,
      ih (shape.child (List.mem_of_getElem? known)) rest, tokensBefore_cons known, tokensAfter_cons known]
    simp only [List.append_assoc]

end

section
variable {tree found : Tree} {path : List Nat} (present : tree.get? path = some found)

include present

theorem tokensBefore_append (below : List Nat) :
    tree.tokensBefore (path ++ below) = tree.tokensBefore path ++ found.tokensBefore below := by
  induction path generalizing tree with
  | nil =>
    rw [get?_nil] at present
    cases present
    simp
  | cons step path ih =>
    obtain ⟨middle, here, rest⟩ := get?_cons_eq_some.mp present
    rw [List.cons_append, tokensBefore_cons here, tokensBefore_cons here, ih rest, List.append_assoc]

theorem tokensAfter_append (below : List Nat) :
    tree.tokensAfter (path ++ below) = found.tokensAfter below ++ tree.tokensAfter path := by
  induction path generalizing tree with
  | nil =>
    rw [get?_nil] at present
    cases present
    simp
  | cons step path ih =>
    obtain ⟨middle, here, rest⟩ := get?_cons_eq_some.mp present
    rw [List.cons_append, tokensAfter_cons here, tokensAfter_cons here, ih rest, List.append_assoc]

end

/-- What tokens say when the uses of a name are negated. Each token keeps the trivia in front of it. -/
def negatedTexts (old new : String) : List Tree → String
  | [] => ""
  | leaf :: rest =>
    leaf.ownLeading ++ (if leaf.isUse old then "!" ++ new else leaf.spelling) ++ negatedTexts old new rest

theorem negatedTexts_append (old new : String) (first second : List Tree) :
    negatedTexts old new (first ++ second) = negatedTexts old new first ++ negatedTexts old new second := by
  induction first with
  | nil => simp [negatedTexts]
  | cons leaf rest ih => simp only [List.cons_append, negatedTexts, ih, String.append_assoc]

theorem tokens_negation (new leading : String) :
    ((Build.negation new).withLeading leading).tokens = [token .punctuation leading "!", token .identifier "" new] := by
  simp [Build.negation, Build.token, Build.identifier, withLeading, withLeadingFirst, firstToken?, tokens, tokensOf,
    Kind.isToken]

theorem text_negation (new leading : String) : ((Build.negation new).withLeading leading).text = leading ++ ("!" ++ new) := by
  rw [← texts_tokens ((wellFormed_negation new).withLeading leading), tokens_negation]
  simp [texts, Tree.text, Kind.isToken, String.append_assoc]

section
variable {old new : String}

mutual

theorem text_negateUses {tree : Tree} (shape : tree.WellFormed) :
    (tree.negateUses old new).text = negatedTexts old new tree.tokens := by
  cases tree with
  | token kind leading text =>
    have isToken : kind.isToken = true := shape
    by_cases used : (token kind leading text).isUse old
    · rw [negateUses_of_isUse used, text_negation]
      simp [tokens, isToken, negatedTexts, used]
    · rw [negateUses_token used]
      simp [tokens, isToken, negatedTexts, used, Tree.text, ownLeading, spelling]
  | node kind children =>
    obtain ⟨inner, below⟩ := (wellFormed_node kind children).mp shape
    rw [negateUses_node, tokens_node inner]
    simp only [Tree.text, inner, Bool.false_eq_true, if_false]
    exact texts_negateUses below

theorem texts_negateUses {trees : List Tree} (shape : ∀ tree ∈ trees, tree.WellFormed) :
    texts (trees.map (negateUses old new)) = negatedTexts old new (tokensOf trees) := by
  cases trees with
  | nil => rfl
  | cons tree rest =>
    obtain ⟨head, tail⟩ := List.forall_mem_cons.mp shape
    rw [List.map_cons, texts, tokensOf, negatedTexts_append, text_negateUses head, texts_negateUses tail]

end

/-- No use is left. -/
theorem spelling_of_mem_negateUses {tree leaf : Tree} (shape : tree.WellFormed) (other : new ≠ old)
    (member : leaf ∈ (tree.negateUses old new).tokens) (isName : leaf.kind = .identifier) : leaf.spelling ≠ old := by
  induction tree with
  | token kind leading text =>
    have isToken : kind.isToken = true := shape
    by_cases used : (token kind leading text).isUse old
    · rw [negateUses_of_isUse used, tokens_negation] at member
      simp only [List.mem_cons, List.not_mem_nil, or_false] at member
      rcases member with rfl | rfl
      · cases isName
      · exact other
    · rw [negateUses_token used] at member
      simp only [tokens, isToken, if_true, List.mem_singleton] at member
      subst member
      intro spelled
      exact used (isUse_of_kind shape isName spelled)
  | node kind children ih =>
    obtain ⟨inner, below⟩ := (wellFormed_node kind children).mp shape
    rw [negateUses_node, tokens_node inner] at member
    obtain ⟨changed, among, inside⟩ := mem_tokensOf.mp member
    obtain ⟨child, present, rfl⟩ := List.mem_map.mp among
    exact ih child present (below child present) inside

end

theorem tokens_renamed (declaration value : Tree) (name trivia : String) :
    ((declaration.renamed value name).withLeading trivia).tokens =
      [token .predefinedType trivia "bool", token .identifier " " name, token .punctuation " " "="] ++
        ((value.withLeading " ").tokens ++ tokensOf declaration.others) := by
  rw [renamed_eq, newDeclarator]
  simp [withLeading, withLeadingFirst, firstToken?, tokens, tokensOf, Kind.isToken]

end Tree

namespace Node
open TreeLint.Tree

structure Between (node : Node) (front back : List Tree) : Prop where
  tokens_eq : node.root.tokens = front ++ (node.tree.tokens ++ back)
  text_eq : node.root.text = texts front ++ node.tree.leading ++ node.text ++ texts back
  start_eq : (texts front ++ node.tree.leading).utf8ByteSize = node.span.start
  stop_eq : (texts front ++ node.tree.leading ++ node.text).utf8ByteSize = node.span.stop

theorem Valid.between {node : Node} (valid : node.Valid) (shape : node.root.WellFormed) :
    ∃ front back, node.Between front back ∧
      ∀ replacement, (node.replaceWith replacement).tokens = front ++ (replacement.tokens ++ back) := by
  have before := texts_tokensBefore shape valid
  have after := texts_tokensAfter shape valid
  have split := tokens_replaceAt shape valid
  have sound := shape.get? valid
  have start : (texts (node.root.tokensBefore node.path) ++ node.tree.leading).utf8ByteSize = node.span.start := by
    rw [before]
    exact (node.start_span shape ⟨rfl, valid⟩).symm
  refine ⟨_, _, ⟨?_, ?_, start, ?_⟩, split⟩
  · rw [← split node.tree, replaceAt_self valid]
  · rw [text_around shape valid, text_eq_leading_append sound, before, after]
    simp only [String.append_assoc, Node.text]
  · rw [String.append_assoc, show node.tree.leading ++ node.text = node.tree.text from (text_eq_leading_append sound).symm,
      String.utf8ByteSize_append, before, size_textBefore shape valid, ← width_eq_utf8ByteSize sound]
    rfl

end Node

namespace Fix
open TreeLint.Tree

/-- The tokens of a file in which a declaration has its new name and the literal for its value. Its trivia stays, and
so do the tokens around it and those behind its first declarator. -/
def exchangedTokens (front : List Tree) (leading name : String) (value : Tree) (rest back : List Tree) : List Tree :=
  front ++ ([token .predefinedType leading "bool", token .identifier " " name, token .punctuation " " "="] ++
    ((value.withLeading " ").tokens ++ tokensOf rest)) ++ back

theorem texts_exchangedTokens {value : Tree} {rest : List Tree} (shape : value.WellFormed)
    (sound : ∀ tree ∈ rest, tree.WellFormed) (some : value.firstToken?.isSome) (front back : List Tree)
    (leading name : String) :
    texts (exchangedTokens front leading name value rest back) =
      texts front ++ leading ++ ("bool " ++ name ++ " = " ++ value.trimmed ++ texts rest) ++ texts back := by
  have literal : texts (value.withLeading " ").tokens = " " ++ value.trimmed := by
    rw [texts_tokens (shape.withLeading " "), text_withLeading shape some]
  have keyword : "bool " = "bool" ++ " " := by decide
  have equals : " = " = " " ++ "=" ++ " " := by decide
  rw [keyword, equals]
  simp only [exchangedTokens, texts_append, literal, texts_tokensOf sound, texts, Tree.text, Kind.isToken, if_true,
    String.append_empty, String.append_assoc]

/-- How a file reads in which a declaration has lost the negation in its name. The declaration is exchanged first, and
then the uses of the old name are negated, those that the declaration retains like all others. -/
structure Respelled (declaration declarator value : Node) (name : String) (front rest back : List Tree) (fixed : Tree) :
    Prop where
  first : declaration.firstDeclarator? = some declarator
  named : declarator.declaratorName?.map Node.spelling = some name
  initial : declarator.initializer? = some value
  literal : value.isLiteral
  retained : rest = declaration.tree.children.drop (declarator.index + 1)
  between : declaration.Between front back
  exchanged : value.tree.firstToken?.isSome →
    texts (exchangedTokens front declaration.tree.leading (Name.affirmed name) value.tree rest back) =
      texts front ++ declaration.tree.leading ++
        ("bool " ++ Name.affirmed name ++ " = " ++ value.text ++ texts rest) ++ texts back
  negated : fixed.text = negatedTexts name (Name.affirmed name)
    (exchangedTokens front declaration.tree.leading (Name.affirmed name) value.tree rest back)
  gone : ∀ leaf ∈ fixed.tokens, leaf.kind = .identifier → leaf.spelling ≠ name

theorem respelled_of_ok {tree fixed : Tree} {node : Node} {name : String} (found : Negated tree node name)
    (shape : tree.WellFormed) (done : negatedName tree node.span = .ok fixed) :
    ∃ declarator value front rest back, Respelled node declarator value name front rest back fixed := by
  obtain ⟨_, value, literal, _, rfl⟩ := (negatedName_eq_ok found shape).mp done
  have rooted : node.root.WellFormed := found.root_eq ▸ shape
  have sound := found.sound shape
  obtain ⟨front, back, between, split⟩ := found.valid.between rooted
  -- The fix has been read off trees so far; these are the nodes that they belong to.
  obtain ⟨declarator, initial, first, initialized, isLiteral, rfl⟩ := nodes_of_literal? literal
  have valueShape := sound.literal? literal
  have retained : node.tree.others = node.tree.children.drop (declarator.index + 1) := by
    rw [others, index_firstDeclarator? first]
  have freshShape := (wellFormed_renamed sound literal (Name.affirmed name)).withLeading node.tree.leading
  have changedShape : (renamedAt tree node name initial.tree).WellFormed := shape.replaceAt found.present freshShape
  have tokens_eq : (renamedAt tree node name initial.tree).tokens =
      exchangedTokens front node.tree.leading (Name.affirmed name) initial.tree node.tree.others back := by
    rw [renamedAt, ← found.root_eq, exchangedTokens, List.append_assoc, ← tokens_renamed]
    exact split _
  refine ⟨declarator, initial, front, node.tree.others, back, first, ?_, initialized, isLiteral, retained, between,
    ?_, ?_, ?_⟩
  · have named := found.parts.2.1
    rw [← Node.declaredName?_eq, Node.declaredName?, first, Option.bind_some] at named
    exact named
  · intro some
    exact texts_exchangedTokens valueShape (fun tree member => sound.child (List.mem_of_mem_drop member)) some _ _ _ _
  · rw [← tokens_eq]
    exact text_negateUses changedShape
  · intro leaf member isName
    exact spelling_of_mem_negateUses changedShape (affirmed_ne found.parts.2.2) member isName

end Fix

/-- The whole effect of the fix on the text, for every report on a negated name. -/
theorem fixIn_respelled {rules : List Rule} {tree fixed : Tree} {defect : Defect} (shape : tree.WellFormed)
    (reported : defect ∈ detect rules tree) (rule : defect.rule = .negatedName) (done : defect.fixIn tree = .ok fixed) :
    ∃ name declarator value front rest back, defect.arguments = [name] ∧
      Fix.Respelled defect.anchor declarator value name front rest back fixed := by
  rcases detect_cases reported with ⟨_, node, name, negated, rfl⟩ | ⟨node, receiver, unconverted, rfl⟩
  · rw [FixState.fixIn_negatedName] at done
    obtain ⟨declarator, value, front, rest, back, respelled⟩ := Fix.respelled_of_ok negated shape done
    exact ⟨name, declarator, value, front, rest, back, rfl, respelled⟩
  · cases rule

def selfNamed : Tree :=
  .node .variableDeclaration
    [.token .predefinedType "\n" "bool",
      .node .variableDeclarator
        [.token .identifier "  " "notA", .token .punctuation "" "=", .node .literal [.token .keyword "  " "true"]],
      .token .punctuation "" ",",
      .node .variableDeclarator
        [.token .identifier " " "b", .token .punctuation " " "=", .token .identifier " " "notA"]]

def reusedName : Tree :=
  .node .compilationUnit
    [.token .identifier "/* é notA */ " "notA", .token .punctuation "" ";", selfNamed, .token .punctuation "" ";",
      .token .identifier "\t" "notA"]

theorem fixIn_respelled_reusedName :
    ∃ defect fixed name declarator value front rest back, defect ∈ detect Rule.all reusedName ∧
      defect.fixIn reusedName = .ok fixed ∧ value.tree.firstToken?.isSome ∧
      Fix.Respelled defect.anchor declarator value name front rest back fixed ∧
      reusedName.text = "/* é notA */ notA;\nbool  notA=  true, b = notA;\tnotA" ∧
      fixed.text = "/* é notA */ !A;\nbool A = true, b = !A;\t!A" := by
  let node : Node := ⟨reusedName, [2], selfNamed⟩
  let literal : Tree := .node .literal [.token .keyword "  " "true"]
  have shape : reusedName.WellFormed := by
    simp [reusedName, selfNamed, Tree.WellFormed, Tree.AllWellFormed, Kind.isToken]
  have negated : Negated reusedName node "notA" := ⟨rfl, rfl, rfl, by decide +kernel⟩
  have unclaimed : Tree.Unclaimed "notA" (Fix.renamedAt reusedName node "notA" literal) := by
    rw [Tree.Unclaimed]
    decide +kernel
  have fits := (Fix.negatedName_eq_ok negated shape).mpr ⟨by decide +kernel, literal, rfl, unclaimed, rfl⟩
  have reported := negated.mem_detect (show Rule.negatedName ∈ Rule.all by decide)
  have done := (FixState.fixIn_negatedName node ["notA"] reusedName).trans fits
  obtain ⟨name, declarator, value, front, rest, back, _, respelled⟩ := fixIn_respelled shape reported rfl done
  have full : (node.firstDeclarator?.bind Node.initializer?).map (fun value => value.tree.firstToken?.isSome) = some true := by
    decide +kernel
  rw [respelled.first, Option.bind_some, respelled.initial, Option.map_some, Option.some_inj] at full
  exact ⟨_, _, name, declarator, value, front, rest, back, reported, done, full, respelled, by decide +kernel,
    by decide +kernel⟩

end TreeLint
