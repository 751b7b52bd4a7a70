import TreeLint.Proofs.Reading
import TreeLint.Proofs.Substitution

/-! What the rules report and where a fix finds it again. A report stands at a node that shows a
token of its own, so a lookup by kind and span leads back to that very node. -/

namespace TreeLint

namespace Node
open TreeLint.Tree

private theorem leaf_of_spelling {leaf : Tree} (shape : leaf.WellFormed) (spelled : leaf.spelling ≠ "") :
    leaf.leading.utf8ByteSize < leaf.width ∧ leaf.firstToken?.isSome ∧ leaf.children = [] := by
  cases leaf with
  | token kind leading text =>
    simp only [WellFormed] at shape
    have some : text.utf8ByteSize ≠ 0 := by
      rw [Ne, String.utf8ByteSize_eq_zero_iff]
      exact spelled
    simp only [Tree.leading, firstToken?, shape, if_true, ownLeading, width, Option.isSome_some, children_token,
      and_self, and_true]
    omega
  | node kind children => exact absurd rfl spelled

/-- A node is found again if a token stands in it that lies inside no other node of its kind. -/
theorem covers_of_token {node : Node} {below : List Nat} {token : Tree} (shape : node.root.WellFormed)
    (valid : node.Valid) (inside : node.tree.get? below = some token) (spelled : token.spelling ≠ "")
    (own : ∀ part, part ≠ [] → part <+: below → ∀ found, node.tree.get? part = some found → found.kind ≠ node.kind) :
    Covers node.root node.kind node.span node := by
  have leafPlace : node.root.get? (node.path ++ below) = some token := by
    rw [get?_append, show node.root.get? node.path = some node.tree from valid]
    exact inside
  obtain ⟨wide, full, bare⟩ := leaf_of_spelling (shape.get? leafPlace) spelled
  have sameTree : Node.root ⟨node.root, node.path ++ below, token⟩ = node.root := rfl
  have start := span_start_le shape sameTree valid leafPlace (List.prefix_append _ _) full
  have stop := span_stop_le sameTree valid leafPlace (List.prefix_append _ _)
  have place := offsetAt_append valid below
  simp only [span, offset] at start stop
  refine ⟨rfl, valid, rfl, rfl, by simp only [span, offset]; omega, ?_⟩
  intro other sameRoot otherValid sameKind sameSpan
  have present : node.root.get? other.path = some other.tree := sameRoot ▸ otherValid
  simp only [span, offset, sameRoot, Span.mk.injEq] at sameSpan
  by_cases up : other.path <+: node.path
  · exact up
  exfalso
  by_cases down : node.path <+: other.path
  · obtain ⟨part, split⟩ := down
    have proper : part ≠ [] := by
      rintro rfl
      rw [List.append_nil] at split
      exact up (split ▸ List.prefix_rfl)
    have found := otherValid.get?_below sameRoot valid split
    have otherPlace := offsetAt_append valid part
    rw [split] at otherPlace
    by_cases around : part <+: below
    · exact own part proper around other.tree found sameKind
    by_cases within : below <+: part
    · obtain ⟨more, rfl⟩ := within
      rw [get?_append, inside, Option.bind_some] at found
      cases more with
      | nil => exact around (by simp)
      | cons index more =>
        obtain ⟨child, known, _⟩ := get?_cons_eq_some.mp found
        rw [bare] at known
        cases known
    · -- The token lies beside the other node, but within its span.
      have gap := disjoint_of_apart ⟨around, within⟩ found inside
      omega
  · have gap := disjoint_of_apart ⟨down, up⟩ valid present
    omega

private theorem trail_concat (root : Tree) (above : List Nat) {tree found child : Tree} {path : List Nat} {index : Nat}
    (present : tree.get? path = some found) (known : found.children[index]? = some child) :
    trail root tree above (path ++ [index]) =
      trail root tree above path ++ [⟨root, above ++ path ++ [index], child⟩] := by
  induction path generalizing tree above with
  | nil =>
    rw [get?_nil] at present
    cases present
    simp [trail, known]
  | cons position path ih =>
    obtain ⟨middle, here, rest⟩ := get?_cons_eq_some.mp present
    rw [List.cons_append, trail, trail, here]
    simp only [ih _ rest, List.cons_append, List.append_assoc, List.nil_append]

private theorem trail_eq_concat (root : Tree) (above : List Nat) {tree found : Tree} {path : List Nat}
    (present : tree.get? path = some found) :
    ∃ front, trail root tree above path = front ++ [⟨root, above ++ path, found⟩] := by
  induction path generalizing tree above with
  | nil =>
    rw [get?_nil] at present
    cases present
    exact ⟨[], by simp [trail]⟩
  | cons position path ih =>
    obtain ⟨middle, here, rest⟩ := get?_cons_eq_some.mp present
    obtain ⟨front, split⟩ := ih (above ++ [position]) rest
    refine ⟨⟨root, above, tree⟩ :: front, ?_⟩
    rw [trail, here]
    simp only [split, List.cons_append, List.append_assoc, List.nil_append]

/-- Around a child stand its parent and what is around that. -/
theorem ancestorsAndSelf_of_mem_children {node child : Node} (valid : node.Valid) (member : child ∈ node.children) :
    child.ancestorsAndSelf = child :: node.ancestorsAndSelf := by
  obtain ⟨sameRoot, path, known⟩ := mem_children member
  rw [ancestorsAndSelf, ancestorsAndSelf, sameRoot, path, trail_concat node.root [] valid known, List.reverse_append,
    List.reverse_singleton, List.singleton_append, List.nil_append, ← sameRoot, ← path]

theorem ancestors_of_mem_children {node child : Node} (valid : node.Valid) (member : child ∈ node.children) :
    child.ancestors = node.ancestorsAndSelf := by
  rw [ancestors, ancestorsAndSelf_of_mem_children valid member, List.tail_cons]

theorem parent?_of_mem_children {node child : Node} (valid : node.Valid) (member : child ∈ node.children) :
    child.parent? = some node := by
  obtain ⟨front, split⟩ := trail_eq_concat node.root [] valid
  rw [parent?, ancestors_of_mem_children valid member, ancestorsAndSelf, split]
  simp

theorem covers_of_child {node : Node} {token : Tree} {index : Nat} (shape : node.root.WellFormed) (valid : node.Valid)
    (known : node.tree.children[index]? = some token) (spelled : token.spelling ≠ "") (other : token.kind ≠ node.kind) :
    Covers node.root node.kind node.span node := by
  have inside : node.tree.get? [index] = some token := by rw [get?_cons, known]; simp
  refine covers_of_token shape valid inside spelled ?_
  intro part proper up found present
  rcases List.prefix_cons_iff.mp up with rfl | ⟨rest, rfl, short⟩
  · exact absurd rfl proper
  · rw [List.prefix_nil.mp short, inside] at present
    cases present
    exact other

theorem covers_of_isBool {node : Node} (shape : node.root.WellFormed) (valid : node.Valid)
    (kind : node.kind = .variableDeclaration) (bool : node.tree.isBool) : Covers node.root node.kind node.span node := by
  rw [Tree.isBool] at bool
  split at bool
  next type known =>
    simp only [Bool.and_eq_true, decide_eq_true_eq] at bool
    exact covers_of_child shape valid known (by rw [bool.2]; decide) (by rw [bool.1, kind]; decide)
  next => cases bool

theorem covers_of_leaf {node : Node} (shape : node.root.WellFormed) (valid : node.Valid) (spelled : node.spelling ≠ "") :
    Covers node.root node.kind node.span node := by
  refine covers_of_token shape valid (get?_nil node.tree) spelled ?_
  intro part proper up
  exact absurd (List.prefix_nil.mp up) proper

theorem searchOutwards_eq_some {start found : Node} {wanted : Node → Bool}
    (search : start.searchOutwards wanted = some found) : found.root = start.root ∧ found.Valid ∧ wanted found := by
  rw [searchOutwards, List.findSome?_eq_some_iff] at search
  obtain ⟨_, scope, _, split, search, _⟩ := search
  have around : scope ∈ start.ancestorsAndSelf := by
    apply List.mem_of_mem_tail
    rw [← ancestors, split]
    simp
  obtain ⟨sameRoot, valid, _⟩ := (mem_ancestorsAndSelf start scope).mp around
  obtain ⟨inRoot, standing, _⟩ := (mem_descendants valid).mp (List.mem_of_find?_eq_some search)
  exact ⟨inRoot.trans sameRoot, standing, List.find?_some search⟩

theorem findClass?_eq_some {start found : Node} {name : String} (search : start.findClass? name = some found) :
    found.root = start.root ∧ found.Valid ∧ found.kind = .classDeclaration := by
  obtain ⟨sameRoot, valid, wanted⟩ := searchOutwards_eq_some search
  simp only [Bool.and_eq_true, decide_eq_true_eq] at wanted
  exact ⟨sameRoot, valid, wanted.1⟩

theorem receiver?_definition {access : Node} {receiver : Receiver} (known : access.receiver? = some receiver) :
    receiver.definition.root = access.root ∧ receiver.definition.Valid ∧
      receiver.definition.kind = .classDeclaration := by
  simp only [receiver?, Option.bind_eq_bind, Option.bind_eq_some_iff, Option.some.injEq] at known
  obtain ⟨_, _, _, _, _, _, definition, search, rfl⟩ := known
  exact findClass?_eq_some search

theorem declares_of_hasMethod {definition : Node} {name : String} (missing : definition.hasMethod name = false) :
    definition.tree.declares name = false := by
  have some : definition.root.size ≠ 0 := by
    cases definition.root <;> simp [size]
  obtain ⟨count, size⟩ := Nat.exists_eq_succ_of_ne_zero some
  rw [hasMethod, lineage, size, lineageFrom] at missing
  simp only [List.not_mem_nil, if_false, List.any_cons, Bool.or_eq_false_iff] at missing
  rw [← declaresMethod_eq]
  exact missing.1

end Node

namespace Name

theorem length_of_isNegated {name : String} (negated : isNegated name) : 3 ≤ name.length := by
  rw [isNegated, Text.sameIgnoringCase, decide_eq_true_eq] at negated
  have count := congrArg List.length negated
  simp only [negationLength, String.toList_ofList, List.length_map, List.length_take, String.length_toList] at count
  have three : "not".length = 3 := rfl
  omega

theorem length_affirmed (name : String) : (affirmed name).length = name.length - 3 := by
  simp [affirmed, negationLength, ← String.length_toList]

theorem ne_toString {name : String} (negated : isNegated name) : name ≠ toStringName := by
  rintro rfl
  exact absurd negated (by decide)

theorem ne_empty {name : String} (negated : isNegated name) : name ≠ "" := by
  rintro rfl
  exact absurd negated (by decide)

end Name

theorem mem_detect {rules : List Rule} {tree : Tree} {defect : Defect} :
    defect ∈ detect rules tree ↔ ∃ rule ∈ rules, ∃ node : Node, node.root = tree ∧ node.Valid ∧
      node.kind = rule.anchorKind ∧ rule.check node = some defect := by
  rw [detect, List.mem_flatMap]
  constructor
  · intro ⟨node, visited, reported⟩
    obtain ⟨sameRoot, valid⟩ := (Tree.mem_selfAndDescendants tree node).mp visited
    rw [defectsAt, List.mem_filterMap] at reported
    obtain ⟨rule, enabled, found⟩ := reported
    rw [List.mem_filter, decide_eq_true_eq] at enabled
    exact ⟨rule, enabled.1, node, sameRoot, valid, enabled.2.symm, found⟩
  · intro ⟨rule, enabled, node, sameRoot, valid, kind, found⟩
    refine ⟨node, (Tree.mem_selfAndDescendants tree node).mpr ⟨sameRoot, valid⟩, ?_⟩
    rw [defectsAt, List.mem_filterMap]
    exact ⟨rule, by simp [enabled, kind], found⟩

structure Negated (tree : Tree) (node : Node) (name : String) : Prop where
  root_eq : node.root = tree
  valid : node.Valid
  kind_eq : node.kind = .variableDeclaration
  name_eq : node.tree.role.negated? = some name

/-- An access to a string conversion that the class of the receiver does not declare. -/
structure Unconverted (tree : Tree) (node : Node) (receiver : Receiver) : Prop where
  root_eq : node.root = tree
  valid : node.Valid
  kind_eq : node.kind = .memberAccess
  receiver_eq : node.receiver? = some receiver
  missing : receiver.definition.tree.declares toStringName = false
  shown : ∃ member ∈ node.children, member.kind = .identifier ∧ member.spelling = toStringName

theorem Negated.parts {tree : Tree} {node : Node} {name : String} (found : Negated tree node name) :
    node.tree.isBool ∧ node.tree.declaredName? = some name ∧ Name.isNegated name := by
  have known := found.name_eq
  rw [Tree.role_declaration found.kind_eq] at known
  cases bool : node.tree.isBool with
  | false => rw [bool] at known; cases known
  | true =>
    rw [bool, Role.negated?, Option.filter_eq_some_iff] at known
    exact ⟨rfl, known⟩

theorem Negated.present {tree : Tree} {node : Node} {name : String} (found : Negated tree node name) :
    tree.get? node.path = some node.tree := by
  rw [← found.root_eq]
  exact found.valid

theorem Negated.sound {tree : Tree} {node : Node} {name : String} (found : Negated tree node name)
    (shape : tree.WellFormed) : node.tree.WellFormed :=
  shape.get? found.present

theorem Negated.role_eq {tree : Tree} {node : Node} {name : String} (found : Negated tree node name) :
    tree.roleAt node.path = .declaration true (some name) node.tree.literal?.isSome := by
  rw [Tree.roleAt_eq found.present, Tree.role_declaration found.kind_eq, found.parts.1, found.parts.2.1]

theorem Unconverted.definition_eq {tree : Tree} {node : Node} {receiver : Receiver}
    (found : Unconverted tree node receiver) : receiver.definition.root = tree ∧ receiver.definition.Valid ∧
      receiver.definition.kind = .classDeclaration := by
  rw [← found.root_eq]
  exact Node.receiver?_definition found.receiver_eq

theorem Unconverted.present {tree : Tree} {node : Node} {receiver : Receiver} (found : Unconverted tree node receiver) :
    tree.get? receiver.definition.path = some receiver.definition.tree := by
  rw [← found.definition_eq.1]
  exact found.definition_eq.2.1

theorem Unconverted.sound {tree : Tree} {node : Node} {receiver : Receiver} (found : Unconverted tree node receiver)
    (shape : tree.WellFormed) : receiver.definition.tree.WellFormed :=
  shape.get? found.present

theorem Unconverted.role_eq {tree : Tree} {node : Node} {receiver : Receiver} (found : Unconverted tree node receiver) :
    tree.roleAt receiver.definition.path = .definition receiver.definition.tree.isClosed false := by
  rw [Tree.roleAt_eq found.present, Tree.role_definition found.definition_eq.2.2, found.missing]

theorem checkNegatedName_eq (node : Node) (kind : node.kind = .variableDeclaration) :
    Rule.checkNegatedName node = node.tree.role.negated?.map fun name => ⟨.negatedName, node, [name]⟩ := by
  rw [Rule.checkNegatedName, node.isBool_eq, node.declaredName?_eq, Tree.role_declaration kind]
  cases node.tree.isBool with
  | false => rfl
  | true =>
    cases node.tree.declaredName? with
    | none => rfl
    | some name => by_cases negated : Name.isNegated name <;> simp [Role.negated?, Option.filter, negated]

theorem checkMissingToString_eq_some {tree : Tree} {node : Node} {defect : Defect} (root : node.root = tree)
    (valid : node.Valid) (kind : node.kind = .memberAccess) (found : Rule.checkMissingToString node = some defect) :
    ∃ receiver, Unconverted tree node receiver ∧ defect = ⟨.missingToString, node, [receiver.name]⟩ := by
  rw [Rule.checkMissingToString] at found
  split at found
  next member memberKnown =>
    split at found
    next spelled =>
      split at found
      next receiver receiverKnown =>
        split at found
        next => cases found
        next missing =>
          cases found
          rw [Node.memberName?, Option.filter_eq_some_iff] at memberKnown
          have named := List.mem_of_getLast? memberKnown.1
          rw [Node.childrenOfKind, List.mem_filter, decide_eq_true_eq] at named
          refine ⟨receiver, ⟨root, valid, kind, receiverKnown, ?_, member, named.1, named.2, spelled⟩, rfl⟩
          exact Node.declares_of_hasMethod (by simpa using missing)
      next => cases found
    next => cases found
  next => cases found

/-- Everything that is reported. -/
theorem detect_cases {rules : List Rule} {tree : Tree} {defect : Defect} (reported : defect ∈ detect rules tree) :
    (.negatedName ∈ rules ∧ ∃ node name, Negated tree node name ∧ defect = ⟨.negatedName, node, [name]⟩) ∨
      ∃ node receiver, Unconverted tree node receiver ∧ defect = ⟨.missingToString, node, [receiver.name]⟩ := by
  obtain ⟨rule, enabled, node, root, valid, kind, found⟩ := mem_detect.mp reported
  cases rule with
  | negatedName =>
    rw [Rule.check, checkNegatedName_eq node kind, Option.map_eq_some_iff] at found
    obtain ⟨name, known, rfl⟩ := found
    exact .inl ⟨enabled, node, name, ⟨root, valid, kind, known⟩, rfl⟩
  | missingToString =>
    obtain ⟨receiver, unconverted, rfl⟩ := checkMissingToString_eq_some root valid kind found
    exact .inr ⟨node, receiver, unconverted, rfl⟩

theorem Negated.mem_detect {rules : List Rule} {tree : Tree} {node : Node} {name : String}
    (found : Negated tree node name) (enabled : .negatedName ∈ rules) :
    ⟨.negatedName, node, [name]⟩ ∈ detect rules tree := by
  refine TreeLint.mem_detect.mpr ⟨.negatedName, enabled, node, found.root_eq, found.valid, found.kind_eq, ?_⟩
  rw [Rule.check, checkNegatedName_eq node found.kind_eq, found.name_eq]
  rfl

theorem Negated.covers {tree : Tree} {node : Node} {name : String} (found : Negated tree node name)
    (shape : tree.WellFormed) : Tree.Covers tree .variableDeclaration node.span node := by
  have covers := Node.covers_of_isBool (found.root_eq ▸ shape) found.valid found.kind_eq found.parts.1
  rwa [found.root_eq, found.kind_eq] at covers

theorem Unconverted.covers {tree : Tree} {node : Node} {receiver : Receiver} (found : Unconverted tree node receiver)
    (shape : tree.WellFormed) : Tree.Covers tree .memberAccess node.span node := by
  obtain ⟨member, child, isName, spelled⟩ := found.shown
  obtain ⟨_, _, known⟩ := Node.mem_children child
  have spelling : member.tree.spelling ≠ "" := by
    rw [show member.tree.spelling = toStringName from spelled]
    decide
  have other : member.tree.kind ≠ node.kind := by
    rw [show member.tree.kind = .identifier from isName, found.kind_eq]
    decide
  have covers := Node.covers_of_child (found.root_eq ▸ shape) found.valid known spelling other
  rwa [found.root_eq, found.kind_eq] at covers

/-- A report leads back to its own anchor, though other nodes may have the same kind and span. -/
theorem detect_covering {rules : List Rule} {tree : Tree} {defect : Defect} (shape : tree.WellFormed)
    (reported : defect ∈ detect rules tree) : tree.covering defect.anchor.kind defect.span = .ok defect.anchor := by
  apply Tree.covering_eq_ok_iff.mpr
  rcases detect_cases reported with ⟨_, node, name, negated, rfl⟩ | ⟨node, receiver, unconverted, rfl⟩
  · rw [negated.kind_eq]
    exact negated.covers shape
  · rw [unconverted.kind_eq]
    exact unconverted.covers shape

def nestedDeclarations : Tree :=
  .node .variableDeclaration
    [.node .argumentList [],
      .node .variableDeclaration
        [.token .predefinedType "/* é */ " "bool",
          .node .variableDeclarator
            [.token .identifier " " "notA", .token .punctuation " " "=", .token .literalToken " " "true"]]]

theorem detect_covering_nestedDeclarations :
    ∃ defect ∈ detect Rule.all nestedDeclarations, defect.anchor.path = [1] ∧
      defect.anchor.kind = nestedDeclarations.kind ∧ defect.span = nestedDeclarations.asNode.span ∧
      nestedDeclarations.covering defect.anchor.kind defect.span = .ok defect.anchor := by
  have shape : nestedDeclarations.WellFormed := by
    simp [nestedDeclarations, Tree.WellFormed, Tree.AllWellFormed, Kind.isToken]
  have computed : ((detect Rule.all nestedDeclarations)[0]?.map fun defect =>
      (defect.anchor.path, defect.anchor.kind, defect.span)) =
        some ([1], nestedDeclarations.kind, nestedDeclarations.asNode.span) := by
    decide +kernel
  obtain ⟨defect, known, shown⟩ := Option.map_eq_some_iff.mp computed
  simp only [Prod.mk.injEq] at shown
  have reported := List.mem_of_getElem? known
  exact ⟨defect, reported, shown.1, shown.2.1, shown.2.2, detect_covering shape reported⟩

theorem of_check {rule : Rule} {node : Node} {defect : Defect} (found : rule.check node = some defect) :
    defect.rule = rule ∧ defect.anchor = node := by
  cases rule with
  | negatedName =>
    simp only [Rule.check, Rule.checkNegatedName] at found
    split at found
    · split at found
      · split at found
        · cases found; exact ⟨rfl, rfl⟩
        · cases found
      · cases found
    · cases found
  | missingToString =>
    simp only [Rule.check, Rule.checkMissingToString] at found
    split at found
    · split at found
      · split at found
        · split at found
          · cases found
          · cases found; exact ⟨rfl, rfl⟩
        · cases found
      · cases found
    · cases found

theorem anchor_of_mem {rules : List Rule} {node : Node} {defect : Defect} (member : defect ∈ defectsAt rules node) :
    defect.anchor = node := by
  rw [defectsAt, List.mem_filterMap] at member
  obtain ⟨rule, _, found⟩ := member
  exact (of_check found).2

/-- A report comes before the reports on nodes inside its own. -/
theorem pairwise_detect (rules : List Rule) (tree : Tree) :
    (detect rules tree).Pairwise fun first second =>
      second.anchor.path <+: first.anchor.path → second.anchor.path = first.anchor.path := by
  rw [detect, List.pairwise_flatMap]
  refine ⟨?_, ?_⟩
  · intro node _
    apply List.pairwise_of_forall_mem_list
    intro first firstMember second secondMember _
    rw [anchor_of_mem firstMember, anchor_of_mem secondMember]
  · apply (Tree.pairwise_selfAndDescendants tree).imp
    intro first second order one oneMember two twoMember up
    rw [anchor_of_mem oneMember, anchor_of_mem twoMember] at up
    exact absurd up order

end TreeLint
