import TreeLint.Proofs.Detection

/-! What adding a string conversion does. It goes through exactly if the body of the class is closed,
and then the class declares the method. The method itself names nothing that a rule reads, and when it
goes in front of the last child of the body, all other declarations and classes keep their places. -/

namespace TreeLint

namespace Tree

/-- A well-formed piece of syntax that names nothing. -/
def Neutral (tree : Tree) : Prop :=
  tree.WellFormed ∧ tree.Plain

theorem neutral_token {kind : Kind} (leading text : String) (isToken : kind.isToken = true) :
    (token kind leading text).Neutral := by
  refine ⟨isToken, plain_token leading text ?_⟩
  cases kind <;> first | rfl | cases isToken

end Tree

def Kind.isMade : Kind → Bool
  | .methodDeclaration | .modifier | .parameterList | .block | .returnStatement | .interpolatedString | .unknown => true
  | kind => kind.isToken

namespace Tree

structure Made (tree : Tree) : Prop where
  shape : tree.WellFormed
  kinds : ∀ found ∈ tree.subtrees, found.kind.isMade

theorem made_token {kind : Kind} (leading text : String) (isToken : kind.isToken = true) :
    (token kind leading text).Made := by
  refine ⟨isToken, ?_⟩
  intro found member
  rw [subtrees, List.mem_singleton] at member
  rw [member]
  cases kind <;> first | rfl | cases isToken

theorem made_node {kind : Kind} {children : List Tree} (inner : kind.isToken = false) (isMade : kind.isMade)
    (below : ∀ child ∈ children, child.Made) : (node kind children).Made := by
  refine ⟨(wellFormed_node kind children).mpr ⟨inner, fun child member => (below child member).shape⟩, ?_⟩
  intro found member
  rw [subtrees_eq, List.mem_cons, List.mem_flatMap] at member
  rcases member with rfl | ⟨child, present, inside⟩
  · exact isMade
  · exact (below child present).kinds found inside

theorem Made.withLeading {tree : Tree} (made : tree.Made) (trivia : String) : (tree.withLeading trivia).Made := by
  refine ⟨made.shape.withLeading trivia, ?_⟩
  have sketched : Sketched fun tree => (!tree.kind.isMade).toNat := fun tree => by simp
  have none : tally (fun tree => (!tree.kind.isMade).toNat) (tree.withLeading trivia) = 0 := by
    rw [tally_withLeading sketched made.shape, tally_eq_zero]
    intro found member
    simp [made.kinds found member]
  intro found member
  simpa using tally_eq_zero.mp none found member

theorem Made.neutral {tree : Tree} (made : tree.Made) : tree.Neutral := by
  refine ⟨made.shape, fun found member => ?_⟩
  have isMade := made.kinds found member
  cases kind : found.kind <;> simp_all [Kind.isMade, Kind.isNaming, Kind.isToken]

private theorem made_interpolation {part : String × String} {piece : Tree} (member : piece ∈ Build.interpolation part) :
    piece.Made := by
  have hole : (node .unknown [Build.token .punctuation "\x7b", Build.identifier part.2,
      Build.token .punctuation "\x7d"]).Made := by
    apply made_node rfl rfl
    simp only [List.mem_cons, List.not_mem_nil, or_false, forall_eq_or_imp, forall_eq]
    exact ⟨made_token _ _ rfl, made_token _ _ rfl, made_token _ _ rfl⟩
  rw [Build.interpolation] at member
  split at member
  · rw [List.mem_singleton.mp member]
    exact hole
  · simp only [List.mem_cons, List.not_mem_nil, or_false] at member
    rcases member with rfl | rfl
    · exact made_token _ _ rfl
    · exact hole

theorem made_interpolatedString (parts : List (String × String)) : (Build.interpolatedString parts).Made := by
  apply made_node rfl rfl
  intro piece member
  simp only [List.mem_append, List.mem_cons, List.mem_flatMap, List.not_mem_nil, or_false] at member
  rcases member with (rfl | ⟨part, _, inside⟩) | rfl
  · exact made_token _ _ rfl
  · exact made_interpolation inside
  · exact made_token _ _ rfl

def listing (fields : List String) : Tree :=
  Build.returnStatement (Build.interpolatedString (Fix.labels fields))

theorem made_listing (fields : List String) : (listing fields).Made := by
  apply made_node rfl rfl
  simp only [List.mem_cons, List.not_mem_nil, or_false, forall_eq_or_imp, forall_eq]
  exact ⟨made_token _ _ rfl, (made_interpolatedString _).withLeading _, made_token _ _ rfl⟩

private theorem made_block {statements : List Tree} (each : ∀ statement ∈ statements, statement.Made)
    (indent : Option String) : (Build.block statements indent).Made := by
  apply made_node rfl rfl
  intro piece member
  simp only [List.mem_append, List.mem_cons, List.mem_map, List.not_mem_nil, or_false] at member
  rcases member with (rfl | ⟨statement, present, rfl⟩) | rfl
  · exact made_token _ _ rfl
  · exact (each statement present).withLeading _
  · exact made_token _ _ rfl

def unplaced (fields : List String) (indent : Option String) : Tree :=
  Build.method ["public", "override"] "string" toStringName (Build.block [listing fields] indent)

theorem made_unplaced (fields : List String) (indent : Option String) : (unplaced fields indent).Made := by
  have modifier (leading text : String) : (node .modifier [token .keyword leading text]).Made := by
    apply made_node rfl rfl
    simp only [List.mem_singleton, forall_eq]
    exact made_token _ _ rfl
  have parameters : (node .parameterList [Build.token .punctuation "(", Build.token .punctuation ")"]).Made := by
    apply made_node rfl rfl
    simp only [List.mem_cons, List.not_mem_nil, or_false, forall_eq_or_imp, forall_eq]
    exact ⟨made_token _ _ rfl, made_token _ _ rfl⟩
  have body : (Build.block [listing fields] indent).Made :=
    made_block (List.forall_mem_singleton.mpr (made_listing fields)) indent
  apply made_node rfl rfl
  simp only [Build.modifiers, List.map_cons, List.map_nil, List.cons_append, List.nil_append, List.mem_cons,
    List.not_mem_nil, or_false, forall_eq_or_imp, forall_eq]
  exact ⟨modifier _ _, modifier _ _, made_token _ _ rfl, made_token _ _ rfl, parameters, body⟩

theorem listingMethod_eq (fields : List String) (layout : Fix.Layout) :
    Fix.listingMethod fields layout = (unplaced fields layout.indent).withLeading layout.trivia := rfl

theorem made_listingMethod (fields : List String) (layout : Fix.Layout) : (Fix.listingMethod fields layout).Made := by
  rw [listingMethod_eq]
  exact (made_unplaced fields layout.indent).withLeading layout.trivia

theorem neutral_listingMethod (fields : List String) (layout : Fix.Layout) : (Fix.listingMethod fields layout).Neutral :=
  (made_listingMethod fields layout).neutral

theorem isMethodNamed_listingMethod (fields : List String) (layout : Fix.Layout) :
    (Fix.listingMethod fields layout).isMethodNamed toStringName := by
  rw [listingMethod_eq, ← isMethodNamed_glimpse, glimpse_withLeading (made_unplaced fields layout.indent).shape,
    isMethodNamed_glimpse]
  rfl

def extended (definition body method : Tree) (slot index : Nat) : Tree :=
  definition.replaceChild slot (body.insertChild index method)

structure Slot (definition body : Tree) (slot index : Nat) : Prop where
  body_eq : definition.children[slot]? = some body
  kind_eq : body.kind = .declarationList
  first : ∀ child ∈ definition.children.take slot, child.kind ≠ .declarationList
  brace : ∃ close, body.children[index]? = some close ∧ close.isBrace

variable {definition body method : Tree} {slot index : Nat}

theorem Slot.inside (place : Slot definition body slot index) : index ≤ body.children.length := by
  obtain ⟨close, known, _⟩ := place.brace
  exact Nat.le_of_lt (List.getElem?_eq_some_iff.mp known).1

theorem children_insertChild (place : Slot definition body slot index) :
    (body.insertChild index method).children = body.children.take index ++ method :: body.children.drop index :=
  children_insertChild_of_le place.inside

theorem kind_insertChild : (body.insertChild index method).kind = body.kind := rfl

theorem kind_extended : (extended definition body method slot index).kind = definition.kind := rfl

theorem children_extended (place : Slot definition body slot index) :
    (extended definition body method slot index).children =
      definition.children.take slot ++ body.insertChild index method :: definition.children.drop (slot + 1) :=
  set_split place.body_eq _

theorem wellFormed_extended (place : Slot definition body slot index) (shape : definition.WellFormed)
    (fresh : method.WellFormed) : (extended definition body method slot index).WellFormed := by
  have member := List.mem_of_getElem? place.body_eq
  have bodyShape := shape.child member
  cases definition with
  | token kind leading text => cases member
  | node kind children =>
    refine (wellFormed_node _ _).mpr ⟨((wellFormed_node kind children).mp shape).1, ?_⟩
    intro child present
    rcases List.mem_or_eq_of_mem_set present with old | rfl
    · exact shape.child old
    · refine (wellFormed_node _ _).mpr ⟨by rw [place.kind_eq]; rfl, ?_⟩
      intro piece inside
      rw [← children_node body.kind (body.children.insertIdx _ _), ← insertChild, children_insertChild place,
        List.mem_append, List.mem_cons] at inside
      rcases inside with front | rfl | behind
      · exact bodyShape.child (List.mem_of_mem_take front)
      · exact fresh
      · exact bodyShape.child (List.mem_of_mem_drop behind)

theorem body?_extended (place : Slot definition body slot index) :
    (extended definition body method slot index).body? = some (body.insertChild index method) := by
  rw [body?, children_extended place, List.find?_append, List.find?_eq_none.mpr, Option.none_or, List.find?_cons]
  · simp [kind_insertChild, place.kind_eq]
  · intro child member
    simpa using place.first child member

theorem role_extended (place : Slot definition body slot index) (kind : definition.kind = .classDeclaration)
    (named : method.isMethodNamed toStringName) :
    (extended definition body method slot index).role = .definition true true := by
  obtain ⟨close, known, isBrace⟩ := place.brace
  have here : method ∈ (body.insertChild index method).children := by
    rw [children_insertChild place]
    simp
  have still : close ∈ (body.insertChild index method).children := by
    rw [children_insertChild place, List.mem_append, List.mem_cons]
    refine .inr (.inr (List.mem_of_getElem? (i := 0) ?_))
    simpa using known
  rw [role_definition (by rw [kind_extended, kind]), isClosed, declares, body?_extended place, Option.any_some,
    Option.any_some, List.any_eq_true.mpr ⟨close, still, isBrace⟩, List.any_eq_true.mpr ⟨method, here, named⟩]

theorem tally_extended {weigh : Tree → Nat} (weight : Weight weigh) (place : Slot definition body slot index)
    (plain : method.Plain) :
    tally weigh (extended definition body method slot index) + weigh definition =
      tally weigh definition + weigh (extended definition body method slot index) := by
  have bodies : tally weigh (body.insertChild index method) = tally weigh body := by
    rw [tally_eq, tally_eq weigh body, children_insertChild place,
      weight.light _ (by rw [kind_insertChild, place.kind_eq]; rfl), weight.light body (by rw [place.kind_eq]; rfl)]
    conv => rhs; rw [← List.take_append_drop index body.children]
    simp only [List.map_append, List.sum_append_nat, List.map_cons, List.sum_cons, tally_of_plain weight plain, Nat.zero_add]
  have outer : (definition.children.map (tally weigh)).sum =
      ((definition.children.take slot).map (tally weigh)).sum + (tally weigh body +
        ((definition.children.drop (slot + 1)).map (tally weigh)).sum) := by
    conv => lhs; rw [split_at place.body_eq]
    simp only [List.map_append, List.sum_append_nat, List.map_cons, List.sum_cons]
  rw [tally_eq, tally_eq weigh definition, children_extended place, outer]
  simp only [List.map_append, List.sum_append_nat, List.map_cons, List.sum_cons, bodies]
  omega

theorem plain_of_isBrace {tree : Tree} (isBrace : tree.isBrace) : tree.Plain := by
  simp only [Tree.isBrace, Bool.and_eq_true, decide_eq_true_eq] at isBrace
  cases tree with
  | token kind leading text =>
    rw [show kind = .punctuation from isBrace.1]
    exact plain_token _ _ rfl
  | node kind children => simp [spelling] at isBrace

theorem isToken_of_isBrace {tree : Tree} (brace : tree.isBrace) : tree.isToken := by
  simp only [isBrace, Bool.and_eq_true, decide_eq_true_eq] at brace
  rw [isToken, brace.1]
  rfl

theorem children_of_isBrace {tree : Tree} (brace : tree.isBrace) : tree.children = [] := by
  cases tree with
  | token kind leading text => rfl
  | node kind children => simp [isBrace, spelling] at brace

private theorem roleAt_insertChild (place : Slot definition body slot index) (plain : method.Plain)
    (last : body.children.length = index + 1) (path : List Nat) :
    (body.insertChild index method).roleAt path = body.roleAt path := by
  obtain ⟨close, known, isBrace⟩ := place.brace
  have shut := roleAt_of_plain (plain_of_isBrace isBrace)
  have landmark : body.kind.isLandmark = false := by rw [place.kind_eq]; rfl
  cases path with
  | nil => rw [roleAt_nil, roleAt_nil, role_other landmark, role_other (by rwa [kind_insertChild])]
  | cons position path =>
    rw [roleAt_cons, roleAt_cons, children_insertChild place, List.getElem?_map, List.getElem?_map,
      List.getElem?_append]
    rw [List.length_take, last, Nat.min_eq_left (Nat.le_succ index)]
    rcases Nat.lt_trichotomy position index with before | rfl | behind
    · rw [if_pos before, List.getElem?_take_of_lt before]
    · rw [if_neg (Nat.lt_irrefl position), Nat.sub_self, List.getElem?_cons_zero, known, Option.map_some,
        Option.map_some, roleAt_of_plain plain, shut]
    · -- Behind the method stands the brace, where there was nothing.
      have nothing : body.children[position]? = none := List.getElem?_eq_none (by omega)
      obtain ⟨offset, rfl⟩ := Nat.exists_eq_add_of_lt behind
      rw [if_neg (by omega), nothing, show index + offset + 1 - index = offset + 1 by omega, List.getElem?_cons_succ,
        List.getElem?_drop]
      cases offset with
      | zero => rw [Nat.add_zero, known, Option.map_some, shut]; rfl
      | succ offset => rw [List.getElem?_eq_none (by omega)]

/-- In front of the last child a method leaves all places as they are. -/
theorem roleAt_extended (place : Slot definition body slot index) (plain : method.Plain)
    (last : body.children.length = index + 1) {path : List Nat} (inside : path ≠ []) :
    (extended definition body method slot index).roleAt path = definition.roleAt path := by
  cases path with
  | nil => exact absurd rfl inside
  | cons position path =>
    have known := place.body_eq
    rw [roleAt_cons, roleAt_cons, extended, replaceChild, children_node, List.getElem?_map, List.getElem?_map,
      List.getElem?_set]
    by_cases same : slot = position
    · subst position
      rw [if_pos rfl, if_pos (List.getElem?_eq_some_iff.mp known).1, known, Option.map_some, Option.map_some,
        roleAt_insertChild place plain last]
    · rw [if_neg same]

end Tree

namespace Fix
open TreeLint.Tree

theorem mem_of_closingBrace? {body close : Node} (shut : closingBrace? body = some close) :
    close ∈ body.children ∧ close.tree.isBrace :=
  List.mem_filter.mp (List.mem_of_getLast? shut)

theorem brace_of_closingBrace? {body close : Node} (shut : closingBrace? body = some close) :
    body.tree.children[close.index]? = some close.tree ∧ close.tree.isBrace := by
  obtain ⟨member, isBrace⟩ := mem_of_closingBrace? shut
  exact ⟨(Node.mem_children member).2.2, isBrace⟩

theorem slot_of_closingBrace? {definition body close : Node} (isBody : definition.classBody? = some body)
    (shut : closingBrace? body = some close) : Slot definition.tree body.tree body.index close.index := by
  have order := Node.map_index_childOfKind? definition .declarationList
  rw [show definition.childOfKind? .declarationList = some body from isBody, Option.map_some, eq_comm,
    List.findIdx?_eq_some_iff_getElem] at order
  obtain ⟨inside, _, early⟩ := order
  have kind : body.kind = .declarationList := by simpa using List.find?_some isBody
  refine ⟨(Node.mem_children (List.mem_of_find?_eq_some isBody)).2.2, kind, ?_, close.tree, brace_of_closingBrace? shut⟩
  intro child member
  obtain ⟨position, before, rfl⟩ := List.mem_take_iff_getElem.mp member
  simpa using early position (by omega)

theorem exists_closingBrace {body : Node} :
    (∃ close, closingBrace? body = some close) ↔ ∃ brace ∈ body.children, brace.tree.isBrace := by
  constructor
  · intro ⟨close, shut⟩
    exact ⟨close, mem_of_closingBrace? shut⟩
  · intro ⟨brace, member, isBrace⟩
    have some : (body.children.filter fun child => child.kind = .punctuation && child.spelling = "\x7d") ≠ [] :=
      List.ne_nil_of_mem (List.mem_filter.mpr ⟨member, isBrace⟩)
    exact ⟨_, List.getLast?_eq_some_getLast some⟩

theorem isClosed_iff (definition : Node) :
    definition.tree.isClosed ↔
      ∃ body close, definition.classBody? = some body ∧ closingBrace? body = some close := by
  rw [isClosed, ← Node.map_tree_classBody?]
  cases definition.classBody? with
  | none => simp
  | some body =>
    simp only [Option.map_some, Option.any_some, List.any_eq_true, Option.some.injEq, exists_and_left, exists_eq_left',
      exists_closingBrace, ← Node.map_tree_children, List.mem_map, exists_exists_and_eq_and]

/-- The brace that the fix looks for is the last child, where a closing brace ends the body. -/
theorem length_of_bracketed {definition body close : Node} (ends : definition.tree.bracketed)
    (isBody : definition.classBody? = some body) (shut : closingBrace? body = some close) :
    body.tree.children.length = close.index + 1 := by
  obtain ⟨brace, known, isBrace⟩ := (slot_of_closingBrace? isBody shut).brace
  have present := List.any_eq_true.mpr ⟨brace, List.mem_of_getElem? known, isBrace⟩
  rw [bracketed, ← Node.map_tree_classBody?, isBody, Option.map_some, Option.all_some, present, Bool.not_true,
    Bool.false_or, Option.any_eq_true] at ends
  obtain ⟨last, final, shutting⟩ := ends
  rw [← Node.map_tree_children, List.getLast?_map, Option.map_eq_some_iff] at final
  obtain ⟨last, final, rfl⟩ := final
  obtain ⟨front, split⟩ := List.getLast?_eq_some_iff.mp final
  have same : last = close := by
    have kept : [last].filter (fun child => child.kind = .punctuation && child.spelling = "\x7d") = [last] :=
      List.filter_cons_of_pos shutting
    rw [closingBrace?, split, List.filter_append, kept, List.getLast?_concat] at shut
    exact Option.some.inj shut
  have place : body.children[front.length]? = some last := by rw [split]; simp
  rw [← same, Node.index_of_getElem? body place, ← Node.map_tree_children, split]
  simp

def converted (definition body close : Node) : Tree :=
  (extended definition.tree body.tree
    (listingMethod definition.fieldNames (Layout.choose definition.classMembers close))
    body.index close.index).withLeading definition.tree.leading

variable {tree : Tree} {node : Node} {receiver : Receiver}

theorem covers_definition {definition body close : Node} (shape : definition.root.WellFormed) (valid : definition.Valid)
    (kind : definition.kind = .classDeclaration) (place : Slot definition.tree body.tree body.index close.index) :
    Covers definition.root definition.kind definition.span definition := by
  obtain ⟨brace, known, isBrace⟩ := place.brace
  have bodyPlace : definition.tree.get? [body.index] = some body.tree := by rw [get?_cons, place.body_eq]; simp
  have bracePlace : definition.tree.get? [body.index, close.index] = some brace := by
    rw [get?_cons, place.body_eq, Option.bind_some, get?_cons, known]
    simp
  simp only [Tree.isBrace, Bool.and_eq_true, decide_eq_true_eq] at isBrace
  refine Node.covers_of_token shape valid bracePlace (by rw [isBrace.2]; decide) ?_
  intro part proper up found present
  rcases List.prefix_cons_iff.mp up with rfl | ⟨rest, rfl, short⟩
  · exact absurd rfl proper
  rcases List.prefix_cons_iff.mp short with rfl | ⟨more, rfl, shorter⟩
  · rw [bodyPlace] at present
    cases present
    rw [place.kind_eq, kind]
    decide
  · rw [List.prefix_nil.mp shorter, bracePlace] at present
    cases present
    rw [isBrace.1, kind]
    decide

/-- What comes of the fix. The looking up and the edit never fail. -/
theorem missingToString_eq (found : Unconverted tree node receiver) (shape : tree.WellFormed) :
    missingToString tree node.span =
      match receiver.definition.classBody? with
      | some body =>
        match closingBrace? body with
        | some close => .ok (tree.replaceAt receiver.definition.path (converted receiver.definition body close))
        | none => .error (reject .openBody)
      | none => .error (reject .noBody) := by
  obtain ⟨sameRoot, valid, kind⟩ := found.definition_eq
  simp only [missingToString, covering_eq_ok_iff.mpr (found.covers shape), bind, Except.bind, found.receiver_eq]
  cases isBody : receiver.definition.classBody? with
  | none => rfl
  | some body =>
    cases shut : closingBrace? body with
    | none => simp only [shut]
    | some close =>
      have place := slot_of_closingBrace? isBody shut
      have covers := covers_definition (sameRoot ▸ shape) valid kind place
      rw [sameRoot] at covers
      have fresh := wellFormed_extended place (found.sound shape) (neutral_listingMethod receiver.definition.fieldNames
        (Layout.choose receiver.definition.classMembers close)).1
      have carried := Edit.applyAll_replacing shape covers fresh
      rw [extended] at carried
      simp only [shut, carried]
      rfl

/-- When the fix goes through, and to which tree. -/
theorem missingToString_eq_ok (found : Unconverted tree node receiver) (shape : tree.WellFormed) {fixed : Tree} :
    missingToString tree node.span = .ok fixed ↔
      ∃ body close, receiver.definition.classBody? = some body ∧ closingBrace? body = some close ∧
        fixed = tree.replaceAt receiver.definition.path (converted receiver.definition body close) := by
  rw [missingToString_eq found shape]
  cases receiver.definition.classBody? with
  | none => simp
  | some body =>
    cases shut : closingBrace? body with
    | none => simp [shut]
    | some close => simp [shut, eq_comm]

theorem replaces_converted {definition body close : Node} (sound : definition.tree.WellFormed)
    (kind : definition.kind = .classDeclaration) (place : Slot definition.tree body.tree body.index close.index) :
    Replaces (converted definition body close) definition.tree := by
  have fresh := wellFormed_extended place sound (neutral_listingMethod definition.fieldNames
    (Layout.choose definition.classMembers close)).1
  refine ⟨?_, by rw [show definition.tree.kind = _ from kind]; rfl, fresh.withLeading _⟩
  rw [converted, kind_withLeading fresh, kind_extended]

theorem tally_converted {weigh : Tree → Nat} (weight : Weight weigh) {definition body close : Node}
    (sound : definition.tree.WellFormed) (kind : definition.kind = .classDeclaration)
    (place : Slot definition.tree body.tree body.index close.index)
    (present : tree.get? definition.path = some definition.tree) :
    tally weigh (tree.replaceAt definition.path (converted definition body close)) + weigh definition.tree =
      tally weigh tree + weigh (converted definition body close) := by
  have method := neutral_listingMethod definition.fieldNames (Layout.choose definition.classMembers close)
  have fresh := wellFormed_extended place sound method.1
  have exchanged := tally_replaceAt weight.sketched present sound (replaces_converted sound kind place)
  have inside := tally_extended weight place method.2
  have trivia : tally weigh (converted definition body close) = _ := tally_withLeading weight.sketched fresh _
  have own : weigh (converted definition body close) = weigh (extended definition.tree body.tree
      (listingMethod definition.fieldNames (Layout.choose definition.classMembers close)) body.index close.index) := by
    rw [converted, ← weight.sketched, sketch_withLeading fresh, weight.sketched]
  omega

/-- All that other parts of the theory need to know of a class with a new method. -/
structure Converted (tree : Tree) (definition : Node) (fixed : Tree) : Prop where
  shape : fixed.WellFormed
  before : tree.roleAt definition.path = .definition true false
  after : fixed.roleAt definition.path = .definition true true
  elsewhere : definition.tree.bracketed → ∀ place, place ≠ definition.path →
    fixed.roleAt place = tree.roleAt place
  tally : ∀ weigh : Role → Nat, weigh .other = 0 →
    Tree.tally (fun tree => weigh tree.role) fixed + weigh (.definition true false) =
      Tree.tally (fun tree => weigh tree.role) tree + weigh (.definition true true)
  claims : ∀ name, Tree.tally (Tree.claims name) fixed = Tree.tally (Tree.claims name) tree

theorem converted_of_ok (found : Unconverted tree node receiver) (shape : tree.WellFormed) {fixed : Tree}
    (done : missingToString tree node.span = .ok fixed) : Converted tree receiver.definition fixed := by
  obtain ⟨body, close, isBody, shut, rfl⟩ := (missingToString_eq_ok found shape).mp done
  have kind := found.definition_eq.2.2
  have present := found.present
  have sound := found.sound shape
  have place := slot_of_closingBrace? isBody shut
  have fits := replaces_converted sound kind place
  have method := neutral_listingMethod receiver.definition.fieldNames
    (Layout.choose receiver.definition.classMembers close)
  have fresh := wellFormed_extended place sound method.1
  have old : receiver.definition.tree.role = .definition true false := by
    rw [role_definition kind, found.missing, (isClosed_iff receiver.definition).mpr ⟨body, close, isBody, shut⟩]
  have new : (converted receiver.definition body close).role = .definition true true := by
    rw [converted, role_withLeading fresh, role_extended place kind (isMethodNamed_listingMethod _ _)]
  refine ⟨shape.replaceAt present fits.shape, ?_, ?_, ?_, ?_, ?_⟩
  · rw [roleAt_eq present, old]
  · rw [roleAt_eq (get?_replaceAt_self present _), new]
  · intro ends path elsewhere
    by_cases below : receiver.definition.path <+: path
    · obtain ⟨rest, rfl⟩ := below
      have inside : rest ≠ [] := by
        rintro rfl
        simp at elsewhere
      rw [roleAt_replaceAt_below present, roleAt_append present, converted, roleAt_withLeading fresh,
        roleAt_extended place method.2 (length_of_bracketed ends isBody shut) inside]
    · exact roleAt_replaceAt present sound fits below
  · intro weigh light
    have exchanged := tally_converted (weight_of_role light) sound kind place present
    rwa [old, new] at exchanged
  · intro name
    have exchanged := tally_converted (weight_claims name) sound kind place present
    have none (tree : Tree) (isClass : tree.kind = .classDeclaration) : claims name tree = 0 := by
      simp [claims, introduced?, isClass]
    rw [none _ kind, none _ (fits.kind_eq.trans kind)] at exchanged
    exact exchanged

end Fix

end TreeLint
