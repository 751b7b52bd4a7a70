import Mathlib.Data.List.TakeWhile
import TreeLint.Proofs.Simulation

/-! Trees without some of their comments. Most of what the rules read is found by its kind, and comments on the way do
not matter. Some children are found by where they stand: the first one of a declaration, of a member access and of a base
type without nodes in it, the one behind the first `=` of a declarator, and the one in front of the parameters of a
method. A comment that stands there is read in place of what it comments on. All other comments can be taken away, any
number of them at once, and every rule reports what it reported before. -/

namespace TreeLint

namespace Tree

mutual

def without (picked : List Nat → Bool) : Tree → Tree
  | token kind leading text => token kind leading text
  | node kind children => node kind (withoutFrom picked 0 children)

def withoutFrom (picked : List Nat → Bool) (index : Nat) : List Tree → List Tree
  | [] => []
  | tree :: rest =>
    if tree.kind = .comment && picked [index] then withoutFrom picked (index + 1) rest
    else tree.without (fun path => picked (index :: path)) :: withoutFrom picked (index + 1) rest

end

def reads (tree : Tree) (index : Nat) : Bool :=
  match tree.kind with
  | .variableDeclaration | .memberAccess => index = 0
  | .baseTypeReference => index = 0 && tree.children.all isToken
  | .variableDeclarator => (tree.children.findIdx? isEquals).map (· + 1) = some index
  | .methodDeclaration => tree.children.findIdx? (fun child => child.kind = .parameterList) = some (index + 1)
  | _ => false

def Unread (picked : List Nat → Bool) (tree : Tree) : Prop :=
  ∀ node ∈ tree.asNode.selfAndDescendants, ∀ child ∈ node.children,
    child.kind = .comment → picked child.path → node.tree.reads child.index = false

instance (picked : List Nat → Bool) (tree : Tree) : Decidable (tree.Unread picked) :=
  inferInstanceAs (Decidable (∀ node ∈ tree.asNode.selfAndDescendants, ∀ child ∈ node.children,
    child.kind = .comment → picked child.path → node.tree.reads child.index = false))

section
variable {picked : List Nat → Bool} {tree : Tree}

theorem unread_iff : tree.Unread picked ↔ ∀ path parent index comment, tree.get? path = some parent →
    parent.children[index]? = some comment → comment.kind = .comment → picked (path ++ [index]) →
    parent.reads index = false := by
  constructor
  · intro unread path parent index comment present known isComment isPicked
    let node : Node := ⟨tree, path, parent⟩
    let child : Node := ⟨tree, path ++ [index], comment⟩
    have below : node.children[index]? = some child := by rw [Node.children_getElem?, known, Option.map_some]
    have missed := unread node ((mem_selfAndDescendants tree node).mpr ⟨rfl, present⟩) child (List.mem_of_getElem? below)
      isComment isPicked
    rwa [Node.index_of_getElem? node below] at missed
  · intro unread node member child inside isComment isPicked
    obtain ⟨sameRoot, valid⟩ := (mem_selfAndDescendants tree node).mp member
    obtain ⟨_, place, known⟩ := Node.mem_children inside
    rw [place] at isPicked
    exact unread node.path node.tree child.index child.tree (sameRoot ▸ valid) known isComment isPicked

theorem Unread.get? {found : Tree} {path : List Nat} (unread : tree.Unread picked) (present : tree.get? path = some found) :
    found.Unread fun below => picked (path ++ below) := by
  rw [unread_iff] at unread ⊢
  intro below parent index comment inside known isComment isPicked
  refine unread (path ++ below) parent index comment ?_ known isComment (by rwa [List.append_assoc])
  rw [get?_append, present]
  exact inside

theorem Unread.child {child : Tree} {index : Nat} (unread : tree.Unread picked) (known : tree.children[index]? = some child) :
    child.Unread fun path => picked (index :: path) := by
  have present : tree.get? [index] = some child := get?_cons_eq_some.mpr ⟨child, known, get?_nil child⟩
  exact unread.get? present

/-- A child that is read is not taken away. -/
theorem Unread.stays {child : Tree} {index : Nat} (unread : tree.Unread picked) (reads : tree.reads index)
    (known : tree.children[index]? = some child) : ¬ (child.kind = .comment && picked [index]) := by
  intro gone
  simp only [Bool.and_eq_true, decide_eq_true_eq] at gone
  have missed := unread_iff.mp unread [] tree index child (get?_nil tree) known gone.1 gone.2
  rw [reads] at missed
  cases missed

end

section
variable (picked : List Nat → Bool)

@[simp] theorem kind_without (tree : Tree) : (tree.without picked).kind = tree.kind := by
  cases tree <;> rfl

@[simp] theorem spelling_without (tree : Tree) : (tree.without picked).spelling = tree.spelling := by
  cases tree <;> rfl

theorem children_without (tree : Tree) : (tree.without picked).children = withoutFrom picked 0 tree.children := by
  cases tree with
  | token kind leading text => rfl
  | node kind children => rw [without]; rfl

variable {picked} {index : Nat} {tree : Tree} {rest : List Tree}

theorem withoutFrom_gone (gone : tree.kind = .comment && picked [index]) :
    withoutFrom picked index (tree :: rest) = withoutFrom picked (index + 1) rest := by
  rw [withoutFrom, if_pos gone]

theorem withoutFrom_stays (stays : ¬ (tree.kind = .comment && picked [index])) :
    withoutFrom picked index (tree :: rest) =
      tree.without (fun path => picked (index :: path)) :: withoutFrom picked (index + 1) rest := by
  rw [withoutFrom, if_neg stays]

theorem withoutFrom_append (first second : List Tree) :
    withoutFrom picked index (first ++ second) =
      withoutFrom picked index first ++ withoutFrom picked (index + first.length) second := by
  induction first generalizing index with
  | nil => simp [withoutFrom]
  | cons tree rest ih =>
    have shift : index + 1 + rest.length = index + (rest.length + 1) := by omega
    by_cases gone : tree.kind = .comment && picked [index]
    · rw [List.cons_append, withoutFrom_gone gone, withoutFrom_gone gone, ih, shift, List.length_cons]
    · rw [List.cons_append, withoutFrom_stays gone, withoutFrom_stays gone, ih, shift, List.length_cons, List.cons_append]

end

/-- Children next to those that stay of them, which are alike. -/
inductive Pruned (alike : Tree → Tree → Prop) : List Tree → List Tree → Prop where
  | nil : Pruned alike [] []
  | keep {tree thin : Tree} {trees thins : List Tree} (kind_eq : thin.kind = tree.kind)
      (spelling_eq : thin.spelling = tree.spelling) (same : alike tree thin) (rest : Pruned alike trees thins) :
      Pruned alike (tree :: trees) (thin :: thins)
  | drop {comment : Tree} {trees thins : List Tree} (isComment : comment.kind = .comment)
      (rest : Pruned alike trees thins) : Pruned alike (comment :: trees) thins

theorem pruned_withoutFrom {alike : Tree → Tree → Prop} {picked : List Nat → Bool} {index : Nat} {trees : List Tree}
    (each : ∀ position child, trees[position]? = some child →
      alike child (child.without fun path => picked ((index + position) :: path))) :
    Pruned alike trees (withoutFrom picked index trees) := by
  induction trees generalizing index with
  | nil => exact .nil
  | cons tree rest ih =>
    have later : Pruned alike rest (withoutFrom picked (index + 1) rest) := by
      apply ih
      intro position child known
      rw [Nat.add_assoc, Nat.add_comm 1]
      exact each (position + 1) child known
    by_cases gone : tree.kind = .comment && picked [index]
    · rw [withoutFrom_gone gone]
      simp only [Bool.and_eq_true, decide_eq_true_eq] at gone
      exact .drop gone.1 later
    · rw [withoutFrom_stays gone]
      exact .keep (kind_without _ tree) (spelling_without _ tree) (each 0 tree rfl) later

namespace Pruned

variable {alike : Tree → Tree → Prop} {trees thins : List Tree} (pruned : Pruned alike trees thins)

include pruned

/-- The first child of a kind is still there, unless comments are looked for. -/
theorem find (wanted : Kind → Bool) (passed : wanted .comment = false) :
    Option.Rel (fun tree thin => wanted tree.kind ∧ alike tree thin) (trees.find? fun child => wanted child.kind)
      (thins.find? fun child => wanted child.kind) := by
  induction pruned with
  | nil => exact .none
  | @keep tree thin _ _ kind_eq _ same _ ih =>
    rw [List.find?_cons, List.find?_cons, kind_eq]
    cases found : wanted tree.kind with
    | true => exact .some ⟨found, same⟩
    | false => exact ih
  | drop isComment _ ih =>
    rw [List.find?_cons, isComment, passed]
    exact ih

theorem any {wanted : Tree → Bool} (passed : ∀ tree : Tree, tree.kind = .comment → wanted tree = false)
    (agree : ∀ tree thin, alike tree thin → wanted thin = wanted tree) : thins.any wanted = trees.any wanted := by
  induction pruned with
  | nil => rfl
  | keep _ _ same _ ih => rw [List.any_cons, List.any_cons, agree _ _ same, ih]
  | drop isComment _ ih => rw [List.any_cons, passed _ isComment, ih, Bool.false_or]

theorem names : (thins.filter fun child => child.kind = .identifier).map spelling =
    (trees.filter fun child => child.kind = .identifier).map spelling := by
  induction pruned with
  | nil => rfl
  | keep kind_eq spelling_eq _ _ ih =>
    rw [List.filter_cons, List.filter_cons, kind_eq]
    split
    next => rw [List.map_cons, List.map_cons, spelling_eq, ih]
    next => exact ih
  | drop isComment _ ih =>
    rw [List.filter_cons, isComment]
    exact ih

end Pruned

/-- What is read of one child is the same for both, if it is the same for children that are alike. -/
theorem eq_of_rel {α : Type} {alike : Tree → Tree → Prop} {first second : Option Tree} (rel : Option.Rel alike first second)
    (read : Option Tree → α) (agree : ∀ tree thin, alike tree thin → read (some thin) = read (some tree)) :
    read second = read first := by
  cases rel with
  | some same => exact agree _ _ same
  | none => rfl

/-- Where the first choice is missing, the second one counts. -/
theorem or_of_rel {wanted : Tree → Prop} {alike : Tree → Tree → Prop} {first second third fourth : Option Tree}
    (rel : Option.Rel (fun tree thin => wanted tree ∧ alike tree thin) first second)
    (otherwise : first = none → Option.Rel alike third fourth) : Option.Rel alike (first.or third) (second.or fourth) := by
  cases rel with
  | some same => exact .some same.2
  | none => exact otherwise rfl

private theorem lastTypeName?_of_none {trees : List Tree} (none : trees.any isNamePart = false) :
    lastTypeName? trees = Option.none := by
  cases trees with
  | nil => rfl
  | cons tree rest =>
    rw [List.any_cons, Bool.or_eq_false_iff] at none
    rw [lastTypeName?, none.1, none.2]
    rfl

private theorem Pruned.lastTypeName? {trees thins : List Tree}
    (pruned : Pruned (fun tree thin => thin.typeName? = tree.typeName?) trees thins) :
    Tree.lastTypeName? thins = Tree.lastTypeName? trees ∧ thins.any isNamePart = trees.any isNamePart := by
  induction pruned with
  | nil => exact ⟨rfl, rfl⟩
  | @keep tree thin _ _ kind_eq _ same _ ih =>
    have part : thin.isNamePart = tree.isNamePart := by rw [isNamePart, isNamePart, kind_eq]
    rw [Tree.lastTypeName?, Tree.lastTypeName?, List.any_cons, List.any_cons, part, same, ih.1, ih.2]
    exact ⟨rfl, rfl⟩
  | @drop comment rest _ isComment _ ih =>
    have part : comment.isNamePart = false := by rw [isNamePart, isComment]; rfl
    rw [Tree.lastTypeName?, List.any_cons, part, ih.1, ih.2, Bool.false_or]
    refine ⟨?_, rfl⟩
    -- Behind the comment stands the last part of the name, or the name has no part at all.
    cases some : rest.any isNamePart with
    | true => rfl
    | false => exact lastTypeName?_of_none some

@[simp] theorem typeName?_without (picked : List Nat → Bool) (tree : Tree) :
    (tree.without picked).typeName? = tree.typeName? := by
  induction tree generalizing picked with
  | token kind leading text => rfl
  | node kind children ih =>
    have pruned : Pruned (fun tree thin => thin.typeName? = tree.typeName?) children (withoutFrom picked 0 children) :=
      pruned_withoutFrom fun position child known => ih child (List.mem_of_getElem? known) _
    rw [without]
    cases kind with
    | genericName =>
      have names := congrArg List.head? pruned.names
      rw [List.head?_map, List.head?_map, List.head?_filter, List.head?_filter] at names
      exact names
    | qualifiedName => exact pruned.lastTypeName?.1
    | _ => rfl

def Thinned (tree thin : Tree) : Prop :=
  ∃ picked, tree.Unread picked ∧ thin = tree.without picked

namespace Thinned

variable {tree thin : Tree}

theorem kind_eq (thinned : Thinned tree thin) : thin.kind = tree.kind := by
  obtain ⟨picked, _, rfl⟩ := thinned
  exact kind_without picked tree

theorem spelling_eq (thinned : Thinned tree thin) : thin.spelling = tree.spelling := by
  obtain ⟨picked, _, rfl⟩ := thinned
  exact spelling_without picked tree

theorem typeName?_eq (thinned : Thinned tree thin) : thin.typeName? = tree.typeName? := by
  obtain ⟨picked, _, rfl⟩ := thinned
  exact typeName?_without picked tree

theorem children (thinned : Thinned tree thin) : Pruned Thinned tree.children thin.children := by
  obtain ⟨picked, unread, rfl⟩ := thinned
  rw [children_without]
  apply pruned_withoutFrom
  intro position child known
  rw [Nat.zero_add]
  exact ⟨_, unread.child known, rfl⟩

theorem childOfKind (thinned : Thinned tree thin) (kind : Kind) (other : kind ≠ .comment) :
    Option.Rel (fun tree thin => tree.kind = kind ∧ Thinned tree thin)
      (tree.children.find? fun child => child.kind = kind) (thin.children.find? fun child => child.kind = kind) := by
  simpa using thinned.children.find (fun found => found = kind) (decide_eq_false other.symm)

theorem ownName?_eq (thinned : Thinned tree thin) : thin.ownName? = tree.ownName? :=
  eq_of_rel (thinned.childOfKind .identifier (by decide)) (Option.map spelling) fun _ _ same =>
    congrArg some same.2.spelling_eq

theorem declaredName?_eq (thinned : Thinned tree thin) : thin.declaredName? = tree.declaredName? :=
  eq_of_rel (thinned.childOfKind .variableDeclarator (by decide)) (Option.bind · ownName?) fun _ _ same =>
    same.2.ownName?_eq

end Thinned

section
variable {alike : Tree → Tree → Prop} {picked : List Nat → Bool} {index : Nat} {trees : List Tree}

theorem head_withoutFrom (first : ∀ child, trees[0]? = some child → ¬ (child.kind = .comment && picked [index]) ∧
      alike child (child.without fun path => picked (index :: path))) :
    Option.Rel alike trees[0]? (withoutFrom picked index trees)[0]? := by
  cases trees with
  | nil => exact .none
  | cons tree rest =>
    obtain ⟨stays, same⟩ := first tree rfl
    rw [withoutFrom_stays stays]
    exact .some same

theorem getLast_withoutFrom (last : ∀ front child, trees = front ++ [child] →
      ¬ (child.kind = .comment && picked [index + front.length]) ∧
      alike child (child.without fun path => picked ((index + front.length) :: path))) :
    Option.Rel alike trees.getLast? (withoutFrom picked index trees).getLast? := by
  rcases trees.eq_nil_or_concat' with rfl | ⟨front, child, rfl⟩
  · exact .none
  · obtain ⟨stays, same⟩ := last front child rfl
    rw [withoutFrom_append, withoutFrom_stays stays, withoutFrom, List.getLast?_concat, List.getLast?_concat]
    exact .some same

theorem unwanted_withoutFrom {wanted : Tree → Bool} (agree : ∀ picked tree, wanted (without picked tree) = wanted tree)
    (unwanted : ∀ child ∈ trees, wanted child = false) :
    ∀ child ∈ withoutFrom picked index trees, wanted child = false := by
  induction trees generalizing index with
  | nil => exact unwanted
  | cons tree rest ih =>
    obtain ⟨here, below⟩ := List.forall_mem_cons.mp unwanted
    by_cases gone : tree.kind = .comment && picked [index]
    · rw [withoutFrom_gone gone]
      exact ih below
    · rw [withoutFrom_stays gone]
      exact List.forall_mem_cons.mpr ⟨(agree _ tree).trans here, ih below⟩

end

theorem absent_without {wanted : Tree → Bool} {tree : Tree}
    (agree : ∀ picked tree, wanted (without picked tree) = wanted tree) (picked : List Nat → Bool)
    (absent : ∀ child ∈ tree.children, wanted child = false) :
    ∀ child ∈ (tree.without picked).children, wanted child = false := by
  rw [children_without]
  exact unwanted_withoutFrom agree absent

structure Divides (wanted : Tree → Bool) (tree : Tree) (front : List Tree) (marker : Tree) (rest : List Tree) : Prop where
  children_eq : tree.children = front ++ marker :: rest
  here : wanted marker = true
  early : ∀ child ∈ front, wanted child = false

theorem absent_or_divides (wanted : Tree → Bool) (tree : Tree) :
    (∀ child ∈ tree.children, wanted child = false) ∨ ∃ front marker rest, Divides wanted tree front marker rest := by
  cases search : tree.children.find? wanted with
  | none => exact .inl (by simpa using search)
  | some marker =>
    obtain ⟨here, front, rest, split, early⟩ := List.find?_eq_some_iff_append.mp search
    exact .inr ⟨front, marker, rest, split, here, by simpa using early⟩

namespace Divides

section
variable {wanted : Tree → Bool} {tree marker : Tree} {front rest : List Tree}

theorem findIdx?_eq (divides : Divides wanted tree front marker rest) :
    tree.children.findIdx? wanted = some front.length := by
  rw [divides.children_eq, List.findIdx?_append, List.findIdx?_eq_none_iff.mpr divides.early, List.findIdx?_cons,
    if_pos divides.here]
  simp

/-- The first child that is wanted divides the children that are left as it divided them all. -/
theorem without (divides : Divides wanted tree front marker rest)
    (passed : ∀ tree : Tree, tree.kind = .comment → wanted tree = false)
    (agree : ∀ picked tree, wanted (Tree.without picked tree) = wanted tree) (picked : List Nat → Bool) :
    Divides wanted (tree.without picked) (withoutFrom picked 0 front)
      (marker.without fun path => picked (front.length :: path)) (withoutFrom picked (front.length + 1) rest) := by
  have stays : ¬ (marker.kind = .comment && picked [front.length]) := by
    intro gone
    simp only [Bool.and_eq_true, decide_eq_true_eq] at gone
    have missed := passed marker gone.1
    rw [divides.here] at missed
    cases missed
  refine ⟨?_, (agree _ marker).trans divides.here, unwanted_withoutFrom agree divides.early⟩
  rw [children_without, divides.children_eq, withoutFrom_append, Nat.zero_add, withoutFrom_stays stays]

end

section
variable {tree marker : Tree} {front rest : List Tree}

theorem initializer?_eq (divides : Divides isEquals tree front marker rest) : tree.initializer? = rest[0]? := by
  rw [initializer?, divides.children_eq,
    List.dropWhile_append_of_pos fun child member => by rw [divides.early child member]; rfl, List.dropWhile_cons,
    divides.here]
  rfl

theorem methodName?_eq (divides : Divides (fun child => child.kind = .parameterList) tree front marker rest) :
    tree.methodName? = (front.getLast?.filter fun child => child.kind = .identifier).map spelling := by
  rw [methodName?, divides.findIdx?_eq, divides.children_eq]
  rcases front.eq_nil_or_concat' with rfl | ⟨before, name, rfl⟩
  · rfl
  · simp

end

end Divides

namespace Thinned

variable {tree thin : Tree}

theorem head (thinned : Thinned tree thin) (reads : tree.reads 0) :
    Option.Rel Thinned tree.children[0]? thin.children[0]? := by
  obtain ⟨picked, unread, rfl⟩ := thinned
  rw [children_without]
  apply head_withoutFrom
  intro child known
  exact ⟨unread.stays reads known, _, unread.child known, rfl⟩

theorem isBool_eq (thinned : Thinned tree thin) (kind : tree.kind = .variableDeclaration) : thin.isBool = tree.isBool := by
  have shown (tree : Tree) : tree.isBool =
      tree.children[0]?.any fun type => type.kind = .predefinedType && type.spelling = "bool" := by
    rw [isBool]
    cases tree.children[0]? <;> rfl
  rw [shown, shown]
  apply eq_of_rel (thinned.head (by simp [reads, kind])) (Option.any _)
  intro type other same
  rw [Option.any_some, Option.any_some, same.kind_eq, same.spelling_eq]

theorem initializer (thinned : Thinned tree thin) (kind : tree.kind = .variableDeclarator) :
    Option.Rel Thinned tree.initializer? thin.initializer? := by
  have agree (picked : List Nat → Bool) (tree : Tree) : (tree.without picked).isEquals = tree.isEquals := by
    rw [isEquals, isEquals, kind_without, spelling_without]
  obtain ⟨picked, unread, rfl⟩ := thinned
  rcases absent_or_divides isEquals tree with absent | ⟨front, equals, rest, divides⟩
  · have nothing {tree : Tree} (absent : ∀ child ∈ tree.children, child.isEquals = false) : tree.initializer? = .none := by
      rw [initializer?, List.dropWhile_eq_nil_iff.mpr fun child member => by rw [absent child member]; rfl]
      rfl
    rw [nothing absent, nothing (absent_without agree picked absent)]
    exact .none
  · have passed (tree : Tree) (isComment : tree.kind = .comment) : tree.isEquals = false := by
      rw [isEquals, isComment]
      rfl
    rw [divides.initializer?_eq, (divides.without passed agree picked).initializer?_eq]
    apply head_withoutFrom
    intro value known
    have place : tree.children[front.length + 1]? = some value := by
      rw [divides.children_eq, List.getElem?_append_right (by omega)]
      simpa using known
    have reads : tree.reads (front.length + 1) := by
      rw [Tree.reads, kind, divides.findIdx?_eq]
      exact decide_eq_true rfl
    exact ⟨unread.stays reads place, _, unread.child place, rfl⟩

theorem constructedType?_eq (thinned : Thinned tree thin) : thin.constructedType? = tree.constructedType? := by
  apply eq_of_rel (thinned.childOfKind .variableDeclarator (by decide)) (Option.bind · _)
  intro declarator plain ⟨kind, same⟩
  apply eq_of_rel (same.initializer kind) (Option.bind · _)
  intro value other created
  simp only [Option.bind_some, created.kind_eq]
  split
  next =>
    exact eq_of_rel (created.children.find Kind.isType rfl) (Option.bind · typeName?) fun _ _ type => type.2.typeName?_eq
  next => rfl

theorem baseName?_eq (thinned : Thinned tree thin) : thin.baseName? = tree.baseName? := by
  apply eq_of_rel (thinned.childOfKind .baseList (by decide)) (Option.bind · _)
  intro bases shorter ⟨_, list⟩
  apply eq_of_rel (list.childOfKind .baseTypeReference (by decide)) (Option.bind · _)
  intro base plain ⟨kind, same⟩
  have type : Option.Rel Thinned ((base.children.find? fun child => !child.isToken).or base.children[0]?)
      ((plain.children.find? fun child => !child.isToken).or plain.children[0]?) := by
    apply or_of_rel (same.children.find (fun kind => !kind.isToken) rfl)
    intro missing
    have flat : base.children.all isToken = true := by simpa [isToken] using missing
    exact same.head (by simp [reads, kind, flat])
  exact eq_of_rel type (Option.bind · typeName?) fun _ _ same => same.typeName?_eq

theorem map_spelling_eq {first second : Option Tree} (same : Option.Rel Thinned first second) :
    ((second.filter fun child => child.kind = .identifier).map spelling) =
      (first.filter fun child => child.kind = .identifier).map spelling := by
  apply eq_of_rel same fun child => (child.filter fun child => child.kind = .identifier).map spelling
  intro name other same
  simp only [Option.filter_some, same.kind_eq]
  split
  next => rw [Option.map_some, Option.map_some, same.spelling_eq]
  next => rfl

theorem receiverName?_eq (thinned : Thinned tree thin) (kind : tree.kind = .memberAccess) :
    thin.receiverName? = tree.receiverName? :=
  map_spelling_eq (thinned.head (by simp [reads, kind]))

theorem memberName?_eq (thinned : Thinned tree thin) (kind : tree.kind = .memberAccess) :
    thin.memberName? = tree.memberName? := by
  obtain ⟨picked, unread, rfl⟩ := thinned
  -- The receiver stays, so it is still the child that does not count as the member.
  have behind : Pruned (fun _ _ => True) tree.children.tail (tree.without picked).children.tail := by
    rw [children_without]
    cases known : tree.children with
    | nil => exact .nil
    | cons receiver rest =>
      have stays : ¬ (receiver.kind = .comment && picked [0]) :=
        unread.stays (by simp [reads, kind]) (by rw [known]; rfl)
      rw [withoutFrom_stays stays]
      exact pruned_withoutFrom fun _ _ _ => trivial
  rw [memberName?, memberName?, ← List.getLast?_map, ← List.getLast?_map, behind.names]

theorem methodName?_eq (thinned : Thinned tree thin) (kind : tree.kind = .methodDeclaration) :
    thin.methodName? = tree.methodName? := by
  have agree (picked : List Nat → Bool) (tree : Tree) :
      decide ((tree.without picked).kind = .parameterList) = decide (tree.kind = .parameterList) := by
    rw [kind_without]
  obtain ⟨picked, unread, rfl⟩ := thinned
  rcases absent_or_divides (fun child => child.kind = .parameterList) tree with absent | ⟨front, parameters, rest, divides⟩
  · rw [methodName?, methodName?, List.findIdx?_eq_none_iff.mpr absent,
      List.findIdx?_eq_none_iff.mpr (absent_without agree picked absent)]
  · have passed (tree : Tree) (isComment : tree.kind = .comment) : decide (tree.kind = .parameterList) = false := by
      rw [isComment]
      rfl
    rw [divides.methodName?_eq, (divides.without passed agree picked).methodName?_eq]
    apply map_spelling_eq
    apply getLast_withoutFrom
    rintro before name rfl
    rw [Nat.zero_add]
    have place : tree.children[before.length]? = some name := by
      rw [divides.children_eq, List.append_assoc, List.getElem?_append_right (Nat.le_refl _), Nat.sub_self]
      rfl
    have reads : tree.reads before.length := by
      rw [Tree.reads, kind, divides.findIdx?_eq, List.length_append]
      exact decide_eq_true rfl
    exact ⟨unread.stays reads place, _, unread.child place, rfl⟩

theorem isMethodNamed_eq (thinned : Thinned tree thin) (name : String) :
    thin.isMethodNamed name = tree.isMethodNamed name := by
  rw [isMethodNamed, isMethodNamed, thinned.kind_eq]
  by_cases kind : tree.kind = .methodDeclaration
  · rw [thinned.methodName?_eq kind]
  · simp [kind]

theorem declares_eq (thinned : Thinned tree thin) (name : String) : thin.declares name = tree.declares name := by
  apply eq_of_rel (thinned.childOfKind .declarationList (by decide)) (Option.any _)
  intro body plain ⟨_, same⟩
  apply same.children.any
  · intro comment isComment
    simp [isMethodNamed, isComment]
  · exact fun _ _ member => member.isMethodNamed_eq name

theorem signature_eq (thinned : Thinned tree thin) : thin.signature = tree.signature := by
  rw [signature, signature, thinned.kind_eq]
  split
  next kind => rw [thinned.isBool_eq kind, thinned.declaredName?_eq, thinned.constructedType?_eq]
  next => rw [thinned.ownName?_eq, thinned.baseName?_eq]
  next kind => rw [thinned.receiverName?_eq kind, thinned.memberName?_eq kind]
  next => rfl

end Thinned

end Tree

end TreeLint
