import Mathlib.Data.List.Basic
import Mathlib.Data.List.Find
import TreeLint.Proofs.Inheritance
import TreeLint.Proofs.Signature

/-! Trees in which every name leads to the same place. A second tree simulates a first one if each node
of the first has an image that shows lookups the same and whose children are the images of its children,
with nothing between them that a lookup would stop at. Then all lookups commute with the image, and the two
trees have the same reports, up to classes that get a conversion. -/

namespace TreeLint

private theorem findSome?_congr {α β : Type} {first second : α → Option β} {items : List α}
    (same : ∀ item ∈ items, first item = second item) : items.findSome? first = items.findSome? second := by
  induction items with
  | nil => rfl
  | cons item rest ih =>
    rw [List.findSome?_cons, List.findSome?_cons, same item (by simp), ih fun other member => same other (by simp [member])]

namespace Tree

def Silent (tree : Tree) : Prop :=
  ∀ found ∈ tree.subtrees, found.kind.isSubject = false

end Tree

namespace Node

def isSubject (node : Node) : Bool :=
  node.kind.isSubject

theorem filter_preorder_of_silent {node : Node} (silent : node.tree.Silent) :
    (node :: node.preorder).filter isSubject = [] := by
  rw [List.filter_eq_nil_iff]
  intro found member
  have visited := Tree.map_tree_selfAndDescendants node
  rw [selfAndDescendants, descendants_eq_preorder] at visited
  have inside : found.tree ∈ node.tree.subtrees := visited ▸ List.mem_map_of_mem member
  rw [isSubject, show found.kind = found.tree.kind from rfl, silent _ inside]
  decide

theorem receiver?_eq (access : Node) :
    access.receiver? = access.tree.receiverName?.bind fun name => (access.findDeclaration? name).bind fun declaration =>
      declaration.tree.constructedType?.bind fun type => (access.findClass? type).map fun definition =>
        ⟨name, declaration, definition⟩ := by
  rw [receiver?, ← map_spelling_receiverName?]
  cases access.receiverName? with
  | none => rfl
  | some receiver =>
    simp only [Option.bind_eq_bind, Option.bind_some, constructedType?_eq, Option.map_eq_bind]
    rfl

end Node

/-- The second list has the nodes of the first and, between them, nodes that no lookup stops at. -/
inductive Padded : List Node → List Node → Prop where
  | nil : Padded [] []
  | keep {node : Node} {first second : List Node} (rest : Padded first second) :
      Padded (node :: first) (node :: second)
  | pad {node : Node} {first second : List Node} (silent : node.tree.Silent) (rest : Padded first second) :
      Padded first (node :: second)

namespace Padded

variable {first second : List Node}

theorem refl (nodes : List Node) : Padded nodes nodes := by
  induction nodes with
  | nil => exact .nil
  | cons node rest ih => exact .keep ih

theorem append {third fourth : List Node} (front : Padded first second) (back : Padded third fourth) :
    Padded (first ++ third) (second ++ fourth) := by
  induction front with
  | nil => exact back
  | keep rest ih => exact .keep ih
  | pad silent rest ih => exact .pad silent ih

theorem subset (padded : Padded first second) : first ⊆ second := by
  induction padded with
  | nil => exact List.Subset.refl _
  | keep rest ih => exact List.cons_subset_cons _ ih
  | pad silent rest ih => exact List.subset_cons_of_subset _ ih

theorem flatMap_eq {α : Type} {read : Node → List α} (padded : Padded first second)
    (nothing : ∀ node : Node, node.tree.Silent → read node = []) : second.flatMap read = first.flatMap read := by
  induction padded with
  | nil => rfl
  | keep rest ih => rw [List.flatMap_cons, List.flatMap_cons, ih]
  | pad silent rest ih => rw [List.flatMap_cons, nothing _ silent, ih, List.nil_append]

end Padded

/-- The second tree shows lookups the same as the first, each node at its image. -/
structure Simulation (tree later : Tree) (image : Node → Node) : Prop where
  root : image tree.asNode = later.asNode
  signature : ∀ node, tree.Holds node → (image node).tree.signature = node.tree.signature
  children : ∀ node, tree.Holds node → Padded (node.children.map image) (image node).children

def Receiver.moved (image : Node → Node) (receiver : Receiver) : Receiver :=
  ⟨receiver.name, image receiver.declaration, image receiver.definition⟩

def Defect.moved (image : Node → Node) (defect : Defect) : Defect :=
  ⟨defect.rule, image defect.anchor, defect.arguments⟩

/-- The report is about a class that inherits from one with a property. -/
def Defect.SettledBy (gains : Node → Prop) (defect : Defect) : Prop :=
  defect.rule = .missingToString ∧ ∃ receiver, defect.anchor.receiver? = some receiver ∧
    ∃ ancestor, receiver.definition.Reaches ancestor ∧ gains ancestor

theorem checkMissingToString_eq (node : Node) :
    Rule.checkMissingToString node =
      if node.tree.memberName? = some toStringName then
        node.receiver?.bind fun receiver =>
          if receiver.definition.hasMethod toStringName then none else some ⟨.missingToString, node, [receiver.name]⟩
      else none := by
  rw [Rule.checkMissingToString, ← Node.map_spelling_memberName?]
  cases node.memberName? with
  | none => rfl
  | some member => cases node.receiver? <;> simp

/-- Rules report on nothing else than what lookups can find. -/
theorem detect_eq_subjects (rules : List Rule) (tree : Tree) :
    detect rules tree = (tree.asNode.selfAndDescendants.filter Node.isSubject).flatMap (defectsAt rules) := by
  have elsewhere (node : Node) (other : ¬ node.isSubject) : defectsAt rules node = [] := by
    have none : (rules.filter fun rule => rule.anchorKind = node.kind) = [] := by
      rw [List.filter_eq_nil_iff]
      intro rule _ same
      rw [Node.isSubject, ← of_decide_eq_true same] at other
      cases rule <;> exact other rfl
    rw [defectsAt, none]
    rfl
  rw [detect]
  induction tree.asNode.selfAndDescendants with
  | nil => rfl
  | cons node rest ih =>
    rw [List.flatMap_cons, ih, List.filter_cons]
    split
    next => rfl
    next other => rw [elsewhere node other, List.nil_append]

namespace Simulation
open TreeLint.Tree TreeLint.Node

variable {tree later : Tree} {image : Node → Node} (simulates : Simulation tree later image)

include simulates

theorem mem_children {node child : Node} (held : tree.Holds node) (member : child ∈ node.children) :
    image child ∈ (image node).children :=
  (simulates.children node held).subset (List.mem_map_of_mem member)

theorem holds {node : Node} (held : tree.Holds node) : later.Holds (image node) := by
  refine Holds.induct (motive := fun node => later.Holds (image node)) ?_ ?_ held
  · rw [simulates.root]
    exact holds_asNode later
  · intro node held standing child member
    exact standing.child (simulates.mem_children held member)

theorem kind_iff {node : Node} {kind : Kind} (held : tree.Holds node) (subject : kind.isSubject = true) :
    (image node).kind = kind ↔ node.kind = kind :=
  kind_eq_of_signature (simulates.signature node held) subject

theorem isSubject_image {node : Node} (held : tree.Holds node) : (image node).isSubject = node.isSubject :=
  isSubject_eq_of_signature (simulates.signature node held)

theorem ancestorsAndSelf {node : Node} (held : tree.Holds node) :
    (image node).ancestorsAndSelf = node.ancestorsAndSelf.map image := by
  refine Holds.induct (motive := fun node => (image node).ancestorsAndSelf = node.ancestorsAndSelf.map image) ?_ ?_ held
  · have alone (tree : Tree) : tree.asNode.ancestorsAndSelf = [tree.asNode] := by
      simp [asNode, Node.ancestorsAndSelf, trail]
    rw [simulates.root, alone, alone, List.map_singleton, simulates.root]
  · intro node held same child member
    rw [ancestorsAndSelf_of_mem_children held.valid member,
      ancestorsAndSelf_of_mem_children (simulates.holds held).valid (simulates.mem_children held member), same,
      List.map_cons]

theorem ancestors {node : Node} (held : tree.Holds node) : (image node).ancestors = node.ancestors.map image := by
  rw [Node.ancestors, simulates.ancestorsAndSelf held, Node.ancestors, List.map_tail]

theorem filter_descendants {node : Node} (held : tree.Holds node) :
    (image node).descendants.filter Node.isSubject = (node.descendants.filter Node.isSubject).map image := by
  suffices below : ∀ (found : Tree) (node : Node), node.tree = found → tree.Holds node →
      (image node).preorder.filter Node.isSubject = (node.preorder.filter Node.isSubject).map image by
    rw [descendants_eq_preorder, descendants_eq_preorder]
    exact below node.tree node rfl held
  have step (node : Node) (held : tree.Holds node)
      (each : ∀ child ∈ node.children, (image child).preorder.filter Node.isSubject =
        (child.preorder.filter Node.isSubject).map image) :
      (image node).preorder.filter Node.isSubject = (node.preorder.filter Node.isSubject).map image := by
    rw [preorder_eq_flatMap, preorder_eq_flatMap node, List.filter_flatMap, List.filter_flatMap,
      (simulates.children node held).flatMap_eq fun _ silent => filter_preorder_of_silent silent, List.flatMap_map,
      List.map_flatMap]
    apply List.flatMap_congr
    intro child member
    rw [List.filter_cons, List.filter_cons, simulates.isSubject_image (held.child member), each child member]
    split <;> rfl
  intro found
  induction found with
  | token kind leading text =>
    intro node same held
    apply step node held
    intro child member
    rw [Node.children, same] at member
    cases member
  | node kind children ih =>
    intro node same held
    apply step node held
    intro child member
    have inside : child.tree ∈ children := by
      have known := List.mem_map_of_mem (f := Node.tree) member
      rwa [map_tree_children, same] at known
    exact ih child.tree inside child rfl (held.child member)

theorem searchOutwards {start : Node} (held : tree.Holds start) {wanted : Node → Bool}
    (subject : ∀ node, wanted node → node.isSubject)
    (same : ∀ node, tree.Holds node → wanted (image node) = wanted node) :
    (image start).searchOutwards wanted = (start.searchOutwards wanted).map image := by
  have narrow (nodes : List Node) : nodes.find? wanted = (nodes.filter Node.isSubject).find? wanted := by
    rw [List.find?_filter]
    congr 1
    funext node
    cases known : wanted node with
    | false => simp
    | true => simp [subject node known]
  rw [Node.searchOutwards, Node.searchOutwards, simulates.ancestors held, List.findSome?_map, List.map_findSome?]
  apply findSome?_congr
  intro scope around
  obtain ⟨sameRoot, valid, _⟩ := (mem_ancestorsAndSelf start scope).mp (List.mem_of_mem_tail around)
  have standing : tree.Holds scope := ⟨sameRoot.trans held.root_eq, valid⟩
  rw [Function.comp_apply, Function.comp_apply, narrow, simulates.filter_descendants standing, List.find?_map,
    narrow scope.descendants]
  congr 1
  apply List.find?_congr
  intro node member
  obtain ⟨inRoot, found, _⟩ := (mem_descendants valid).mp (List.mem_filter.mp member).1
  exact same node ⟨inRoot.trans standing.root_eq, found⟩

theorem findDeclaration? {start : Node} (held : tree.Holds start) (name : String) :
    (image start).findDeclaration? name = (start.findDeclaration? name).map image := by
  apply simulates.searchOutwards held
  · intro node found
    simp only [Bool.and_eq_true, decide_eq_true_eq] at found
    rw [Node.isSubject, found.1]
    rfl
  · intro node standing
    rw [← Bool.decide_and, ← Bool.decide_and, decide_eq_decide, simulates.kind_iff standing rfl]
    refine and_congr_right fun kind => ?_
    rw [declaredName?_eq, declaredName?_eq, (variable_of_signature (simulates.signature node standing) kind).2.1]

theorem findClass? {start : Node} (held : tree.Holds start) (name : String) :
    (image start).findClass? name = (start.findClass? name).map image := by
  apply simulates.searchOutwards held
  · intro node found
    simp only [Bool.and_eq_true, decide_eq_true_eq] at found
    rw [Node.isSubject, found.1]
    rfl
  · intro node standing
    rw [← Bool.decide_and, ← Bool.decide_and, decide_eq_decide, simulates.kind_iff standing rfl]
    refine and_congr_right fun kind => ?_
    rw [className?_eq, className?_eq, (definition_of_signature (simulates.signature node standing) kind).1]

theorem receiver? {access : Node} (held : tree.Holds access) (kind : access.kind = .memberAccess) :
    (image access).receiver? = access.receiver?.map (Receiver.moved image) := by
  have named := (access_of_signature (simulates.signature access held) kind).1
  rw [receiver?_eq, receiver?_eq, named]
  cases access.tree.receiverName? with
  | none => rfl
  | some name =>
    rw [Option.bind_some, Option.bind_some, simulates.findDeclaration? held]
    cases search : access.findDeclaration? name with
    | none => rfl
    | some declaration =>
      obtain ⟨sameRoot, valid, wanted⟩ := searchOutwards_eq_some search
      have standing : tree.Holds declaration := ⟨sameRoot.trans held.root_eq, valid⟩
      simp only [Bool.and_eq_true, decide_eq_true_eq] at wanted
      have constructed := (variable_of_signature (simulates.signature declaration standing) wanted.1).2.2
      rw [Option.map_some, Option.bind_some, Option.bind_some, constructed]
      cases declaration.tree.constructedType? with
      | none => rfl
      | some type =>
        rw [Option.bind_some, Option.bind_some, simulates.findClass? held, Option.map_map, Option.map_map]
        rfl

theorem base_eq_found_iff {definition : Node} (held : tree.Holds definition) (kind : definition.kind = .classDeclaration)
    {base : Node} : (image definition).base = .found base ↔ ∃ old, definition.base = .found old ∧ image old = base := by
  have named := (definition_of_signature (simulates.signature definition held) kind).2
  rw [Node.base, Node.base, baseName?_eq, baseName?_eq, named]
  cases definition.tree.baseName? with
  | none => simp
  | some name =>
    by_cases top : Text.sameIgnoringCase name "object" = true
    · simp [top]
    · simp only [top, simulates.findClass? held]
      cases definition.findClass? name <;> simp

theorem reaches_iff {definition ancestor : Node} (held : tree.Holds definition) (kind : definition.kind = .classDeclaration) :
    (image definition).Reaches ancestor ↔ ∃ old, definition.Reaches old ∧ image old = ancestor := by
  constructor
  · intro reaches
    induction reaches with
    | refl => exact ⟨definition, .refl, rfl⟩
    | tail _ step ih =>
      obtain ⟨old, reached, rfl⟩ := ih
      obtain ⟨base, up, rfl⟩ := (simulates.base_eq_found_iff (reached.holds held) (reached.isClass kind)).mp step
      exact ⟨base, reached.tail up, rfl⟩
  · rintro ⟨old, reaches, rfl⟩
    induction reaches with
    | refl => exact .refl
    | tail reached step ih =>
      exact ih.tail ((simulates.base_eq_found_iff (Reaches.holds reached held) (Reaches.isClass reached kind)).mpr ⟨_, step, rfl⟩)

theorem hasMethod_iff {definition : Node} (held : tree.Holds definition) (kind : definition.kind = .classDeclaration)
    (name : String) :
    (image definition).hasMethod name ↔ ∃ old, definition.Reaches old ∧ (image old).declaresMethod name := by
  rw [Node.hasMethod_iff (simulates.holds held).valid]
  constructor
  · intro ⟨ancestor, reaches, declared⟩
    obtain ⟨old, reached, rfl⟩ := (simulates.reaches_iff held kind).mp reaches
    exact ⟨old, reached, declared⟩
  · intro ⟨old, reached, declared⟩
    exact ⟨image old, (simulates.reaches_iff held kind).mpr ⟨old, reached, rfl⟩, declared⟩

section
variable {gains : Node → Prop} (declared : ∀ definition, tree.Holds definition → definition.kind = .classDeclaration →
  ((image definition).declaresMethod toStringName ↔ definition.declaresMethod toStringName ∨ gains definition))

include declared

theorem hasMethod_gained {definition : Node} (held : tree.Holds definition) (kind : definition.kind = .classDeclaration) :
    (image definition).hasMethod toStringName ↔
      definition.hasMethod toStringName ∨ ∃ ancestor, definition.Reaches ancestor ∧ gains ancestor := by
  rw [simulates.hasMethod_iff held kind, Node.hasMethod_iff held.valid, ← exists_or]
  refine exists_congr fun ancestor => ?_
  rw [← and_or_left]
  exact and_congr_right fun reaches => declared ancestor (reaches.holds held) (reaches.isClass kind)

open Classical in
theorem check_image {rule : Rule} {node : Node} (held : tree.Holds node) (kind : node.kind = rule.anchorKind) :
    rule.check (image node) =
      ((rule.check node).filter fun defect => ¬ defect.SettledBy gains).map (Defect.moved image) := by
  have same := simulates.signature node held
  cases rule with
  | negatedName =>
    obtain ⟨bool, name, _⟩ := variable_of_signature same kind
    rw [Rule.check, Rule.checkNegatedName, Rule.checkNegatedName, isBool_eq, isBool_eq, declaredName?_eq,
      declaredName?_eq, bool, name]
    split
    · split
      · split
        · simp [Option.filter, Defect.SettledBy, Defect.moved]
        · rfl
      · rfl
    · rfl
  | missingToString =>
    rw [Rule.check, checkMissingToString_eq, checkMissingToString_eq, (access_of_signature same kind).2,
      simulates.receiver? held kind]
    split
    next =>
      cases known : node.receiver? with
      | none => rfl
      | some receiver =>
        obtain ⟨sameRoot, valid, isClass⟩ := receiver?_definition known
        have standing : tree.Holds receiver.definition := ⟨sameRoot.trans held.root_eq, valid⟩
        have gained := simulates.hasMethod_gained declared standing isClass
        have settled : Defect.SettledBy gains ⟨.missingToString, node, [receiver.name]⟩ ↔
            ∃ ancestor, receiver.definition.Reaches ancestor ∧ gains ancestor := by
          simp [Defect.SettledBy, known]
        simp only [Option.map_some, Option.bind_some, Receiver.moved]
        by_cases old : receiver.definition.hasMethod toStringName = true
        · rw [if_pos (gained.mpr (.inl old)), if_pos old]
          rfl
        · rw [if_neg old]
          by_cases new : ∃ ancestor, receiver.definition.Reaches ancestor ∧ gains ancestor
          · rw [if_pos (gained.mpr (.inr new)), Option.filter_some, if_neg (by simp [settled.mpr new])]
            rfl
          · rw [if_neg fun has => (gained.mp has).elim old new, Option.filter_some,
              if_pos (by simp [mt settled.mp new])]
            rfl
    next => rfl

open Classical in
theorem defectsAt_image (rules : List Rule) {node : Node} (held : tree.Holds node) :
    defectsAt rules (image node) =
      ((defectsAt rules node).filter fun defect => ¬ defect.SettledBy gains).map (Defect.moved image) := by
  have anchored : (rules.filter fun rule => rule.anchorKind = (image node).kind) =
      rules.filter fun rule => rule.anchorKind = node.kind := by
    apply List.filter_congr
    intro rule _
    rw [decide_eq_decide, eq_comm, simulates.kind_iff held (by cases rule <;> rfl), eq_comm]
  rw [defectsAt, defectsAt, anchored, List.filter_filterMap, List.map_filterMap]
  apply List.filterMap_congr
  intro rule member
  have kind : rule.anchorKind = node.kind := of_decide_eq_true (List.mem_filter.mp member).2
  rw [simulates.check_image declared held kind.symm]

open Classical in
/-- The second tree has the reports of the first, without those on classes that gain a conversion. -/
theorem detect_image (rules : List Rule) :
    detect rules later =
      ((detect rules tree).filter fun defect => ¬ defect.SettledBy gains).map (Defect.moved image) := by
  have visited : later.asNode.selfAndDescendants.filter Node.isSubject =
      (tree.asNode.selfAndDescendants.filter Node.isSubject).map image := by
    have below := simulates.filter_descendants (holds_asNode tree)
    have here := simulates.isSubject_image (holds_asNode tree)
    rw [simulates.root] at below here
    rw [selfAndDescendants, selfAndDescendants, List.filter_cons, List.filter_cons, here, below]
    split
    · rw [List.map_cons, simulates.root]
    · rfl
  rw [detect_eq_subjects, detect_eq_subjects, visited, List.flatMap_map, List.filter_flatMap, List.map_flatMap]
  apply List.flatMap_congr
  intro node member
  obtain ⟨sameRoot, valid⟩ := (mem_selfAndDescendants tree node).mp (List.mem_filter.mp member).1
  exact simulates.defectsAt_image declared rules ⟨sameRoot, valid⟩

end

/-- If no class gains or loses a conversion, the reports are the same. -/
theorem detect_moved (declared : ∀ definition, tree.Holds definition → definition.kind = .classDeclaration →
      (image definition).declaresMethod toStringName = definition.declaresMethod toStringName) (rules : List Rule) :
    detect rules later = (detect rules tree).map (Defect.moved image) := by
  have unchanged (definition : Node) (held : tree.Holds definition) (kind : definition.kind = .classDeclaration) :
      (image definition).declaresMethod toStringName ↔ definition.declaresMethod toStringName ∨ False := by
    rw [declared definition held kind, or_false]
  rw [simulates.detect_image unchanged, List.filter_eq_self.mpr]
  intro defect _
  simp [Defect.SettledBy]

end Simulation

end TreeLint
