import TreeLint.Proofs.ConvertedReports
import TreeLint.Proofs.InsertedText
import TreeLint.Text.WhiteSpace

/-! How classes are laid out. Where a member of a class has a line feed in it, the closing brace of the class should
stand on a line of its own. A new method goes in front of such a brace and follows the layout of the members, so it
brings a line feed only to classes that are laid out over several lines, and these stay laid out in this way. -/

namespace TreeLint

namespace Tree

/-- There is a line feed in the text or in front of it. -/
def Broken (tree : Tree) : Prop :=
  '\n' ∈ tree.text.toList

instance (tree : Tree) : Decidable tree.Broken :=
  inferInstanceAs (Decidable ('\n' ∈ tree.text.toList))

def lastBrace? (body : Tree) : Option Tree :=
  (body.children.filter isBrace).getLast?

/-- Only blanks stand in front of the closing brace, and a line feed among them if a member has one. -/
def Shut (body : Tree) : Prop :=
  ∀ close ∈ body.lastBrace?, close.leading.toList.all Text.isWhiteSpace ∧
    ∀ member ∈ body.children, member.isToken = false → member.Broken → '\n' ∈ close.leading.toList

instance (body : Tree) : Decidable body.Shut :=
  inferInstanceAs (Decidable (∀ close ∈ body.lastBrace?, _))

def LaidOut (tree : Tree) : Prop :=
  ∀ body ∈ tree.subtrees, body.kind = .declarationList → body.Shut

instance (tree : Tree) : Decidable tree.LaidOut :=
  inferInstanceAs (Decidable (∀ body ∈ tree.subtrees, body.kind = .declarationList → body.Shut))

theorem broken_of_mem_texts {trees : List Tree} (broken : '\n' ∈ (texts trees).toList) : ∃ tree ∈ trees, tree.Broken := by
  induction trees with
  | nil => cases broken
  | cons tree rest ih =>
    rw [texts, String.toList_append, List.mem_append] at broken
    rcases broken with here | later
    · exact ⟨tree, by simp, here⟩
    · obtain ⟨found, member, known⟩ := ih later
      exact ⟨found, by simp [member], known⟩

theorem Broken.of_part {tree part : Tree} (shape : tree.WellFormed) (member : part ∈ tree.subtrees)
    (broken : part.Broken) : tree.Broken := by
  obtain ⟨path, present⟩ := mem_subtrees.mp member
  rw [Broken, text_around shape present, String.toList_append, String.toList_append]
  exact List.mem_append_left _ (List.mem_append_right _ broken)

theorem Broken.of_leading {tree : Tree} (shape : tree.WellFormed) (broken : '\n' ∈ tree.leading.toList) : tree.Broken := by
  rw [Broken, text_eq_leading_append shape, String.toList_append]
  exact List.mem_append_left _ broken

theorem Broken.of_spelling {tree : Tree} (shape : tree.WellFormed) (broken : '\n' ∈ tree.spelling.toList) : tree.Broken := by
  cases tree with
  | token kind leading text =>
    rw [WellFormed] at shape
    simp only [Broken, Tree.text, shape, if_true, String.toList_append]
    exact List.mem_append_right _ broken
  | node kind children => cases broken

theorem text_of_isBrace {tree : Tree} (shape : tree.WellFormed) (brace : tree.isBrace) :
    tree.text = tree.leading ++ "\x7d" := by
  simp only [isBrace, Bool.and_eq_true, decide_eq_true_eq] at brace
  cases tree with
  | token kind leading text =>
    obtain ⟨rfl, rfl⟩ := brace
    rfl
  | node kind children =>
    obtain ⟨rfl, _⟩ := brace
    cases shape.1

theorem isBrace_of_inner {tree : Tree} (inner : tree.isToken = false) : tree.isBrace = false := by
  cases brace : tree.isBrace with
  | false => rfl
  | true =>
    rw [isToken_of_isBrace brace] at inner
    cases inner

/-- Everything in a tree with a changed part: what was there already, what is in the new part, and what is around it. -/
theorem mem_subtrees_replaceAt {tree replacement found : Tree} {place : List Nat} {old : Tree}
    (present : tree.get? place = some old) (member : found ∈ (tree.replaceAt place replacement).subtrees) :
    found ∈ tree.subtrees ∨ found ∈ replacement.subtrees ∨
      ∃ above step below around, place = above ++ step :: below ∧ tree.get? above = some around ∧
        found = around.replaceAt (step :: below) replacement := by
  induction place generalizing tree with
  | nil =>
    rw [replaceAt_nil] at member
    exact .inr (.inl member)
  | cons step place ih =>
    obtain ⟨middle, known, rest⟩ := get?_cons_eq_some.mp present
    rw [subtrees_eq, List.mem_cons, children_replaceAt_cons known, List.mem_flatMap] at member
    rcases member with rfl | ⟨child, among, inside⟩
    · exact .inr (.inr ⟨[], step, place, tree, rfl, get?_nil tree, rfl⟩)
    · rcases List.mem_or_eq_of_mem_set among with old | rfl
      · exact .inl (mem_subtrees_of_child old inside)
      · rcases ih rest inside with still | fresh | ⟨above, next, below, around, rfl, there, rfl⟩
        · exact .inl (mem_subtrees_of_child (List.mem_of_getElem? known) still)
        · exact .inr (.inl fresh)
        · exact .inr (.inr ⟨step :: above, next, below, around, rfl,
            get?_cons_eq_some.mpr ⟨middle, known, there⟩, rfl⟩)

section
variable {tree body close child : Tree} {place : List Nat} {index : Nat}

theorem lastBrace?_insertChild (inside : index ≤ body.children.length) (inner : child.isToken = false) :
    (body.insertChild index child).lastBrace? = body.lastBrace? := by
  rw [lastBrace?, lastBrace?, children_insertChild_of_le inside, List.filter_append,
    List.filter_cons_of_neg (by simp [isBrace_of_inner inner]), ← List.filter_append, List.take_append_drop]

theorem lastBrace?_replaceAt {step : Nat} {below : List Nat} {middle : Tree} (known : tree.children[step]? = some middle)
    (replacement : Tree) (old : middle.isToken = false) (new : (middle.replaceAt below replacement).isToken = false) :
    (tree.replaceAt (step :: below) replacement).lastBrace? = tree.lastBrace? := by
  rw [lastBrace?, lastBrace?, children_replaceAt_cons known, set_split known]
  conv => rhs; rw [split_at known]
  simp [isBrace_of_inner old, isBrace_of_inner new]

variable (shape : tree.WellFormed) (present : tree.get? place = some body) (known : body.children[index]? = some close)

include shape present known in
/-- The line feeds of a tree with a new child are its own, if those of the child are. -/
theorem broken_insert (fits : child.Broken → '\n' ∈ close.leading.toList)
    (broken : (tree.replaceAt place (body.insertChild index child)).Broken) : tree.Broken := by
  have bracePlace : tree.get? (place ++ [index]) = some close := get?_concat present known
  rw [Broken, text_insert child shape present known, String.toList_append, String.toList_append, String.toList_append,
    List.mem_append, List.mem_append, List.mem_append] at broken
  rcases broken with before | new | brace | after
  · rw [Broken, text_around shape bracePlace, String.toList_append, String.toList_append]
    exact List.mem_append_left _ (List.mem_append_left _ before)
  · have closeShape := shape.get? bracePlace
    exact (Broken.of_leading closeShape (fits new)).of_part shape (mem_subtrees.mpr ⟨_, bracePlace⟩)
  · exact Broken.of_part shape (mem_subtrees.mpr ⟨_, bracePlace⟩) brace
  · rw [Broken, text_around shape bracePlace, String.toList_append, String.toList_append]
    exact List.mem_append_right _ after

include known in
theorem shut_insertChild (shut : body.Shut) (last : body.lastBrace? = some close) (inner : child.isToken = false)
    (fits : child.Broken → '\n' ∈ close.leading.toList) : (body.insertChild index child).Shut := by
  have inside := Nat.le_of_lt (List.getElem?_eq_some_iff.mp known).1
  intro brace final
  rw [lastBrace?_insertChild inside inner] at final
  refine ⟨(shut brace final).1, ?_⟩
  intro part among large broken
  rw [children_insertChild_of_le inside, List.mem_append, List.mem_cons] at among
  rcases among with front | rfl | back
  · exact (shut brace final).2 part (List.mem_of_mem_take front) large broken
  · rw [last, Option.mem_some] at final
    exact final ▸ fits broken
  · exact (shut brace final).2 part (List.mem_of_mem_drop back) large broken

include known in
theorem shut_around {around middle : Tree} {step : Nat} {below : List Nat} (sound : around.WellFormed) (shut : around.Shut)
    (here : around.children[step]? = some middle) (inside : middle.get? below = some body)
    (fits : child.Broken → '\n' ∈ close.leading.toList) :
    (around.replaceAt (step :: below) (body.insertChild index child)).Shut := by
  have middleShape := sound.child (List.mem_of_getElem? here)
  have old : middle.isToken = false := by
    cases below with
    | nil =>
      rw [get?_nil] at inside
      cases inside
      exact inner_of_child known middleShape
    | cons next below =>
      obtain ⟨piece, standing, _⟩ := get?_cons_eq_some.mp inside
      exact inner_of_child standing middleShape
  have new : (middle.replaceAt below (body.insertChild index child)).isToken = false := by
    rw [isToken, kind_replaceAt inside kind_insertChild]
    exact old
  intro brace final
  rw [lastBrace?_replaceAt here _ old new] at final
  refine ⟨(shut brace final).1, ?_⟩
  intro part among large broken
  rw [children_replaceAt_cons here] at among
  rcases List.mem_or_eq_of_mem_set among with still | rfl
  · exact (shut brace final).2 part still large broken
  · exact (shut brace final).2 middle (List.mem_of_getElem? here) old
      (broken_insert middleShape inside known fits broken)

include shape present known in
theorem laidOut_insert (laid : tree.LaidOut) (last : body.lastBrace? = some close) (kind : body.kind = .declarationList)
    (made : child.Made) (inner : child.isToken = false) (fits : child.Broken → '\n' ∈ close.leading.toList) :
    (tree.replaceAt place (body.insertChild index child)).LaidOut := by
  have inside := Nat.le_of_lt (List.getElem?_eq_some_iff.mp known).1
  have bodyInside : body ∈ tree.subtrees := mem_subtrees.mpr ⟨_, present⟩
  intro found member isBody
  rcases mem_subtrees_replaceAt present member with old | new | ⟨above, step, below, around, rfl, there, rfl⟩
  · exact laid found old isBody
  · rw [subtrees_eq, List.mem_cons, children_insertChild_of_le inside, List.mem_flatMap] at new
    rcases new with rfl | ⟨piece, among, within⟩
    · exact shut_insertChild known (laid body bodyInside kind) last inner fits
    rw [List.mem_append, List.mem_cons] at among
    rcases among with front | rfl | back
    · exact laid found (subtrees_trans bodyInside (mem_subtrees_of_child (List.mem_of_mem_take front) within)) isBody
    · have isMade := made.kinds found within
      rw [isBody] at isMade
      cases isMade
    · exact laid found (subtrees_trans bodyInside (mem_subtrees_of_child (List.mem_of_mem_drop back) within)) isBody
  · rw [get?_append, there, Option.bind_some] at present
    obtain ⟨middle, here, rest⟩ := get?_cons_eq_some.mp present
    have old : around.kind = .declarationList := by
      rwa [kind_replaceAt (get?_cons_eq_some.mpr ⟨middle, here, rest⟩) kind_insertChild] at isBody
    exact shut_around known (shape.get? there) (laid around (mem_subtrees.mpr ⟨_, there⟩) old) here rest fits

end

private theorem broken_interpolation {parts : List (String × String)}
    (broken : '\n' ∈ (texts (parts.flatMap Build.interpolation)).toList) :
    ∃ part ∈ parts, '\n' ∈ part.1.toList ∨ '\n' ∈ part.2.toList := by
  obtain ⟨piece, member, known⟩ := broken_of_mem_texts broken
  obtain ⟨part, among, inside⟩ := List.mem_flatMap.mp member
  refine ⟨part, among, ?_⟩
  rw [Build.interpolation] at inside
  split at inside
  · rw [List.mem_singleton] at inside
    subst inside
    simpa [Broken, Tree.text, texts, Build.token, Build.identifier, Kind.isToken] using Or.inr known
  · simp only [List.mem_cons, List.not_mem_nil, or_false] at inside
    rcases inside with rfl | rfl
    · exact .inl (by simpa [Broken, Tree.text, Build.token, Kind.isToken] using known)
    · exact .inr (by simpa [Broken, Tree.text, texts, Build.token, Build.identifier, Kind.isToken] using known)

private theorem broken_labels {fields : List String} {part : String × String} (member : part ∈ Fix.labels fields)
    (broken : '\n' ∈ part.1.toList ∨ '\n' ∈ part.2.toList) : ∃ field ∈ fields, '\n' ∈ field.toList := by
  obtain ⟨index, inside, rfl⟩ := List.mem_mapIdx.mp member
  refine ⟨fields[index], List.getElem_mem inside, ?_⟩
  rcases broken with label | value
  · rw [String.toList_append, String.toList_append, List.mem_append, List.mem_append] at label
    rcases label with (first | here) | last
    · split at first <;> simp at first
    · exact here
    · simp at last
  · exact value

/-- A method on one line has a line feed only if a field has one in its name. -/
theorem broken_unplaced {fields : List String} (broken : (unplaced fields none).Broken) :
    ∃ field ∈ fields, '\n' ∈ field.toList := by
  have names : '\n' ∈ (texts ((Fix.labels fields).flatMap Build.interpolation)).toList := by
    simpa [Broken, unplaced, Build.method, Build.modifiers, Build.block, listing, Build.returnStatement,
      Build.interpolatedString, Build.token, Build.spaced, Tree.text, texts, texts_append, withLeading, withLeadingFirst,
      firstToken?, firstTokenOf?, Kind.isToken, toStringName] using broken
  obtain ⟨part, member, known⟩ := broken_interpolation names
  exact broken_labels member known

theorem broken_withLeading {tree : Tree} {trivia : String} (shape : tree.WellFormed) (full : tree.firstToken?.isSome)
    (broken : (tree.withLeading trivia).Broken) : '\n' ∈ trivia.toList ∨ tree.Broken := by
  rw [Broken, text_withLeading shape full, String.toList_append, List.mem_append] at broken
  refine broken.imp_right fun inside => ?_
  rw [Broken, text_eq_leading_append shape, String.toList_append]
  exact List.mem_append_right _ inside

/-- A class in which nothing stands before the brace starts with the brace. -/
theorem leading_of_bare {definition body close : Tree} {slot index : Nat} (place : Slot definition body slot index)
    (shape : definition.WellFormed) (known : body.children[index]? = some close) (brace : close.isBrace)
    (bare : firstTokenOf? (definition.children.take slot ++ body.children.take index) = none) :
    definition.leading = close.leading := by
  rw [firstTokenOf?_append, Option.or_eq_none_iff] at bare
  have member := List.mem_of_getElem? place.body_eq
  have bodyShape := shape.child member
  have closeStart := firstToken?_of_isToken (isToken_of_isBrace brace)
  have bodyStart : body.firstToken? = some close := by
    rw [firstToken?_inner (inner_of_child known bodyShape), split_at known, firstTokenOf?_append, bare.2, Option.none_or,
      firstTokenOf?, closeStart, Option.some_or]
  have start : definition.firstToken? = some close := by
    rw [firstToken?_inner (inner_of_child place.body_eq shape), split_at place.body_eq, firstTokenOf?_append, bare.1,
      Option.none_or, firstTokenOf?, bodyStart, Option.some_or]
  rw [leading_of_firstToken? start, leading_of_firstToken? closeStart]

end Tree

namespace Fix
open TreeLint.Tree

theorem lastBrace?_of_closingBrace? {body close : Node} (shut : closingBrace? body = some close) :
    body.tree.lastBrace? = some close.tree := by
  rw [lastBrace?, ← Node.map_tree_children, List.filter_map, List.getLast?_map]
  exact congrArg (Option.map Node.tree) shut

theorem newline_of_indentation? {trivia indent : String} (known : indentation? trivia = some indent) :
    '\n' ∈ trivia.toList := by
  rw [indentation?] at known
  split at known
  next feed => simpa using feed
  next => cases known

theorem choose_eq_oneLine {members : List Node} {close : Node} (single : (Layout.choose members close).indent = none) :
    Layout.choose members close = .oneLine := by
  rw [Layout.choose] at single ⊢
  split at single <;> split at single <;> first | rfl | cases single

variable {definition body close : Node}

theorem mem_classMembers {member : Node} (isBody : definition.classBody? = some body)
    (listed : member ∈ definition.classMembers) :
    member ∈ body.children ∧ member.tree.isToken = false := by
  rw [Node.classMembers, isBody, List.mem_filter] at listed
  exact ⟨listed.1, (Bool.not_eq_true' _).mp listed.2⟩

theorem broken_fieldName (shape : definition.tree.WellFormed) {field : String} (isBody : definition.classBody? = some body)
    (listed : field ∈ definition.fieldNames) (broken : '\n' ∈ field.toList) :
    ∃ member ∈ definition.classMembers, member.tree.Broken := by
  obtain ⟨member, among, named⟩ := List.mem_filterMap.mp listed
  have isMember := (List.mem_filter.mp among).1
  obtain ⟨declaration, isDeclaration, known⟩ := Option.bind_eq_some_iff.mp named
  rw [Node.declaredName?, Option.map_eq_some_iff] at known
  obtain ⟨name, found, rfl⟩ := known
  obtain ⟨declarator, isDeclarator, isName⟩ := Option.bind_eq_some_iff.mp found
  have child {node part : Node} (member : part ∈ node.children) : part.tree ∈ node.tree.children :=
    List.mem_of_getElem? (Node.mem_children member).2.2
  have bodyShape := shape.child (child (List.mem_of_find?_eq_some isBody))
  have memberShape := bodyShape.child (child (mem_classMembers isBody isMember).1)
  have inside : name.tree ∈ member.tree.subtrees :=
    mem_subtrees_of_child (child (List.mem_of_find?_eq_some isDeclaration))
      (mem_subtrees_of_child (child (List.mem_of_find?_eq_some isDeclarator))
        (mem_subtrees_of_child (child (List.mem_of_find?_eq_some isName)) (self_mem_subtrees name.tree)))
  obtain ⟨path, present⟩ := mem_subtrees.mp inside
  exact ⟨member, isMember, (Broken.of_spelling (memberShape.get? present) broken).of_part memberShape inside⟩

section
variable (isBody : definition.classBody? = some body) (shut : closingBrace? body = some close) (laid : body.tree.Shut)

include isBody shut laid

theorem newline_of_member {member : Node} (listed : member ∈ definition.classMembers) (broken : member.tree.Broken) :
    '\n' ∈ close.tree.leading.toList := by
  obtain ⟨among, inner⟩ := mem_classMembers isBody listed
  exact (laid close.tree (lastBrace?_of_closingBrace? shut)).2 member.tree
    (List.mem_of_getElem? (Node.mem_children among).2.2) inner broken

/-- A layout over several lines is chosen only where the closing brace has a line of its own. -/
theorem newline_of_layout (shape : definition.tree.WellFormed)
    (broken : (Layout.choose definition.classMembers close).indent ≠ none) :
    '\n' ∈ close.tree.leading.toList := by
  rw [Layout.choose] at broken
  split at broken
  next last final =>
    split at broken
    next indent known =>
      have listed := List.mem_of_getLast? final
      have bodyShape := shape.child (List.mem_of_getElem? (slot_of_closingBrace? isBody shut).body_eq)
      have lastShape := bodyShape.child
        (List.mem_of_getElem? (Node.mem_children (mem_classMembers isBody listed).1).2.2)
      exact newline_of_member isBody shut laid listed
        (Broken.of_leading lastShape (newline_of_indentation? known))
    next => exact absurd rfl broken
  next =>
    split at broken
    next indent known => exact newline_of_indentation? known
    next => exact absurd rfl broken

theorem newline_of_listing (shape : definition.tree.WellFormed)
    (broken : (listingMethod definition.fieldNames (Layout.choose definition.classMembers close)).Broken) :
    '\n' ∈ close.tree.leading.toList := by
  by_cases several : (Layout.choose definition.classMembers close).indent = none
  · rw [choose_eq_oneLine several, listingMethod_eq] at broken
    rcases broken_withLeading (made_unplaced ..).shape rfl broken with front | inside
    · simp [Layout.oneLine] at front
    · obtain ⟨field, listed, feed⟩ := broken_unplaced inside
      obtain ⟨member, among, known⟩ := broken_fieldName shape isBody listed feed
      exact newline_of_member isBody shut laid among known
  · exact newline_of_layout isBody shut laid shape several

/-- The new method has a line feed only where the closing brace has a line of its own. -/
theorem newline_of_method (shape : definition.tree.WellFormed) (broken : (placedMethod definition body close).Broken) :
    '\n' ∈ close.tree.leading.toList := by
  rw [placedMethod] at broken
  split at broken
  next => exact newline_of_listing isBody shut laid shape broken
  next bare =>
    -- Nothing stands in the class before the method, which has taken over the trivia in front of the class.
    rcases broken_withLeading (made_listingMethod ..).shape rfl broken with front | inside
    · obtain ⟨known, isBrace⟩ := brace_of_closingBrace? shut
      rwa [leading_of_bare (slot_of_closingBrace? isBody shut) shape known isBrace (by simpa using bare)] at front
    · exact newline_of_listing isBody shut laid shape inside

end

variable {tree : Tree} {node : Node} {receiver : Receiver}

theorem laidOut_converted (found : Unconverted tree node receiver) (shape : tree.WellFormed) (laid : tree.LaidOut)
    (isBody : receiver.definition.classBody? = some body) (shut : closingBrace? body = some close) :
    (tree.replaceAt receiver.definition.path (converted receiver.definition body close)).LaidOut := by
  have inserted := inserted_of_ok found shape isBody shut
  have place := slot_of_closingBrace? isBody shut
  have known := (brace_of_closingBrace? shut).1
  have bodyShut := laid body.tree (mem_subtrees.mpr ⟨_, inserted.present⟩) place.kind_eq
  have inner : (placedMethod receiver.definition body close).isToken = false := by
    have named := isMethodNamed_placedMethod receiver.definition body close
    rw [isMethodNamed, Bool.and_eq_true, decide_eq_true_eq] at named
    rw [isToken, named.1]
    rfl
  rw [inserted.later_eq]
  exact laidOut_insert shape inserted.present known laid (lastBrace?_of_closingBrace? shut) place.kind_eq
    (made_placedMethod ..) inner (newline_of_method isBody shut bodyShut (found.sound shape))

end Fix

end TreeLint
