import TreeLint.Tree.Node

/-! Paths and what stands at them. A replacement changes the tree at its own path and above it,
nowhere else; two places of which neither lies inside the other share no byte. -/

namespace TreeLint.Tree

/-- Induction over a tree, with the hypothesis for all children at once. -/
@[induction_eliminator]
theorem induct {motive : Tree → Prop}
    (token : ∀ kind leading text, motive (.token kind leading text))
    (node : ∀ kind children, (∀ child ∈ children, motive child) → motive (.node kind children)) :
    ∀ tree, motive tree
  | .token kind leading text => token kind leading text
  | .node kind children => node kind children (fun child _ => induct token node child)

@[simp] theorem children_token (kind : Kind) (leading text : String) :
    (token kind leading text).children = [] := rfl

@[simp] theorem children_node (kind : Kind) (children : List Tree) :
    (node kind children).children = children := rfl

@[simp] theorem kind_token (kind : Kind) (leading text : String) :
    (token kind leading text).kind = kind := rfl

@[simp] theorem kind_node (kind : Kind) (children : List Tree) :
    (node kind children).kind = kind := rfl

theorem allWellFormed_iff (trees : List Tree) :
    AllWellFormed trees ↔ ∀ tree ∈ trees, tree.WellFormed := by
  induction trees with
  | nil => simp [AllWellFormed]
  | cons tree rest ih => simp [AllWellFormed, ih]

theorem wellFormed_node (kind : Kind) (children : List Tree) :
    (node kind children).WellFormed ↔ kind.isToken = false ∧ ∀ child ∈ children, child.WellFormed := by
  rw [WellFormed, allWellFormed_iff]

theorem WellFormed.child {tree child : Tree} (shape : tree.WellFormed) (member : child ∈ tree.children) :
    child.WellFormed := by
  cases tree with
  | token kind leading text => cases member
  | node kind children => exact ((wellFormed_node kind children).mp shape).2 child member

theorem widths_append (first second : List Tree) :
    widths (first ++ second) = widths first + widths second := by
  induction first with
  | nil => simp [widths]
  | cons tree rest ih => simp only [List.cons_append, widths, ih, Nat.add_assoc]

theorem texts_append (first second : List Tree) :
    texts (first ++ second) = texts first ++ texts second := by
  induction first with
  | nil => simp [texts]
  | cons tree rest ih => simp only [List.cons_append, texts, ih, String.append_assoc]

theorem mem_tokensOf {trees : List Tree} {leaf : Tree} :
    leaf ∈ tokensOf trees ↔ ∃ tree ∈ trees, leaf ∈ tree.tokens := by
  induction trees with
  | nil => simp [tokensOf]
  | cons tree rest ih => simp [tokensOf, ih]

theorem tokensOf_append (first second : List Tree) :
    tokensOf (first ++ second) = tokensOf first ++ tokensOf second := by
  induction first with
  | nil => simp [tokensOf]
  | cons tree rest ih => simp [tokensOf, ih]

theorem width_eq_widths {tree : Tree} (inner : tree.children ≠ []) :
    tree.width = widths tree.children := by
  cases tree with
  | token kind leading text => exact absurd rfl inner
  | node kind children => rfl

@[simp] theorem get?_nil (tree : Tree) : tree.get? [] = some tree := by
  rw [get?]

theorem get?_cons (tree : Tree) (index : Nat) (path : List Nat) :
    tree.get? (index :: path) = tree.children[index]?.bind fun child => child.get? path := by
  rw [get?]
  cases tree.children[index]? <;> rfl

theorem get?_cons_eq_some {tree found : Tree} {index : Nat} {path : List Nat} :
    tree.get? (index :: path) = some found ↔
      ∃ child, tree.children[index]? = some child ∧ child.get? path = some found := by
  rw [get?_cons, Option.bind_eq_some_iff]

theorem get?_append (tree : Tree) (path below : List Nat) :
    tree.get? (path ++ below) = (tree.get? path).bind fun found => found.get? below := by
  induction path generalizing tree with
  | nil => simp
  | cons index path ih =>
    rw [List.cons_append, get?_cons, get?_cons]
    cases tree.children[index]? with
    | none => rfl
    | some child => exact ih child

theorem get?_concat {tree found child : Tree} {path : List Nat} {index : Nat} (present : tree.get? path = some found)
    (known : found.children[index]? = some child) : tree.get? (path ++ [index]) = some child := by
  rw [get?_append, present, Option.bind_some, get?_cons, known, Option.bind_some, get?_nil]

theorem WellFormed.get? {tree found : Tree} {path : List Nat} (shape : tree.WellFormed)
    (present : tree.get? path = some found) : found.WellFormed := by
  induction path generalizing tree with
  | nil => rw [get?_nil] at present; cases present; exact shape
  | cons index path ih =>
    obtain ⟨child, known, rest⟩ := get?_cons_eq_some.mp present
    exact ih (shape.child (List.mem_of_getElem? known)) rest

@[simp] theorem replaceAt_nil (tree replacement : Tree) : tree.replaceAt [] replacement = replacement := by
  rw [replaceAt]

theorem replaceAt_cons {tree child : Tree} {index : Nat} (known : tree.children[index]? = some child)
    (path : List Nat) (replacement : Tree) :
    tree.replaceAt (index :: path) replacement =
      node tree.kind (tree.children.set index (child.replaceAt path replacement)) := by
  rw [replaceAt, known]
  rfl

theorem children_replaceAt_cons {tree child : Tree} {index : Nat}
    (known : tree.children[index]? = some child) (path : List Nat) (replacement : Tree) :
    (tree.replaceAt (index :: path) replacement).children =
      tree.children.set index (child.replaceAt path replacement) := by
  rw [replaceAt_cons known]
  rfl

private theorem node_kind_children {tree : Tree} (inner : tree.children ≠ []) :
    node tree.kind tree.children = tree := by
  cases tree with
  | token kind leading text => exact absurd rfl inner
  | node kind children => rfl

private theorem children_ne_nil {tree child : Tree} {index : Nat}
    (known : tree.children[index]? = some child) : tree.children ≠ [] :=
  List.ne_nil_of_mem (List.mem_of_getElem? known)

/-- The children before, at and behind an index. -/
theorem split_at {trees : List Tree} {child : Tree} {index : Nat} (known : trees[index]? = some child) :
    trees = trees.take index ++ child :: trees.drop (index + 1) := by
  obtain ⟨inside, rfl⟩ := List.getElem?_eq_some_iff.mp known
  rw [← List.drop_eq_getElem_cons inside, List.take_append_drop]

theorem set_split {trees : List Tree} {child : Tree} {index : Nat} (known : trees[index]? = some child)
    (other : Tree) : trees.set index other = trees.take index ++ other :: trees.drop (index + 1) := by
  rw [List.set_eq_take_append_cons_drop, if_pos (List.getElem?_eq_some_iff.mp known).1]

theorem replaceAt_self {tree found : Tree} {path : List Nat} (present : tree.get? path = some found) :
    tree.replaceAt path found = tree := by
  induction path generalizing tree with
  | nil => rw [get?_nil] at present; cases present; exact replaceAt_nil _ _
  | cons index path ih =>
    obtain ⟨child, known, rest⟩ := get?_cons_eq_some.mp present
    rw [replaceAt_cons known, ih rest, set_split known, ← split_at known]
    exact node_kind_children (children_ne_nil known)

theorem kind_replaceAt {tree found replacement : Tree} {path : List Nat}
    (present : tree.get? path = some found) (same : replacement.kind = found.kind) :
    (tree.replaceAt path replacement).kind = tree.kind := by
  cases path with
  | nil => rw [get?_nil] at present; cases present; rw [replaceAt_nil, same]
  | cons index path =>
    obtain ⟨child, known, _⟩ := get?_cons_eq_some.mp present
    rw [replaceAt_cons known]
    rfl

theorem WellFormed.replaceAt {tree found replacement : Tree} {path : List Nat} (shape : tree.WellFormed)
    (present : tree.get? path = some found) (fresh : replacement.WellFormed) :
    (tree.replaceAt path replacement).WellFormed := by
  induction path generalizing tree with
  | nil => simpa using fresh
  | cons index path ih =>
    obtain ⟨child, known, rest⟩ := get?_cons_eq_some.mp present
    rw [replaceAt_cons known, wellFormed_node]
    refine ⟨?_, ?_⟩
    · cases tree with
      | token kind leading text => cases known
      | node kind children => exact ((wellFormed_node kind children).mp shape).1
    · intro other member
      rcases List.mem_or_eq_of_mem_set member with old | rfl
      · exact shape.child old
      · exact ih (shape.child (List.mem_of_getElem? known)) rest

/-- At and below the replaced place stands the replacement. -/
theorem get?_replaceAt_below {tree found : Tree} {path : List Nat} (present : tree.get? path = some found)
    (replacement : Tree) (below : List Nat) :
    (tree.replaceAt path replacement).get? (path ++ below) = replacement.get? below := by
  induction path generalizing tree with
  | nil => simp
  | cons index path ih =>
    obtain ⟨child, known, rest⟩ := get?_cons_eq_some.mp present
    rw [List.cons_append, get?_cons, children_replaceAt_cons known,
      List.getElem?_set_self (List.getElem?_eq_some_iff.mp known).1]
    exact ih rest

theorem get?_replaceAt_self {tree found : Tree} {path : List Nat} (present : tree.get? path = some found)
    (replacement : Tree) : (tree.replaceAt path replacement).get? path = some replacement := by
  simpa using get?_replaceAt_below present replacement []

/-- A place above the replaced one holds the replacement inside it. -/
theorem get?_replaceAt_above {tree around : Tree} {path : List Nat}
    (above : tree.get? path = some around) (below : List Nat) (replacement : Tree) :
    (tree.replaceAt (path ++ below) replacement).get? path = some (around.replaceAt below replacement) := by
  induction path generalizing tree with
  | nil => rw [get?_nil] at above; cases above; simp
  | cons index path ih =>
    obtain ⟨child, known, rest⟩ := get?_cons_eq_some.mp above
    rw [List.cons_append, get?_cons, children_replaceAt_cons known,
      List.getElem?_set_self (List.getElem?_eq_some_iff.mp known).1]
    exact ih rest

def Apart (first second : List Nat) : Prop :=
  ¬ first <+: second ∧ ¬ second <+: first

theorem Apart.symm {first second : List Nat} (apart : Apart first second) : Apart second first :=
  ⟨apart.2, apart.1⟩

theorem apart_cons {first second : List Nat} {index : Nat} (apart : Apart (index :: first) (index :: second)) :
    Apart first second :=
  ⟨fun up => apart.1 (List.cons_prefix_cons.mpr ⟨rfl, up⟩),
    fun up => apart.2 (List.cons_prefix_cons.mpr ⟨rfl, up⟩)⟩

theorem get?_replaceAt_apart {tree : Tree} {path other : List Nat} (apart : Apart path other)
    (replacement : Tree) : (tree.replaceAt path replacement).get? other = tree.get? other := by
  induction path generalizing tree other with
  | nil => exact absurd List.nil_prefix apart.1
  | cons index path ih =>
    cases other with
    | nil => exact absurd List.nil_prefix apart.2
    | cons position other =>
      cases known : tree.children[index]? with
      | none => rw [replaceAt, known]
      | some child =>
        rw [get?_cons, get?_cons, children_replaceAt_cons known, List.getElem?_set]
        by_cases same : index = position
        · subst position
          rw [if_pos rfl, if_pos (List.getElem?_eq_some_iff.mp known).1, known]
          exact ih (apart_cons apart)
        · rw [if_neg same]

private theorem insertIdx_eq_append {trees : List Tree} (tree : Tree) {index : Nat} (inside : index ≤ trees.length) :
    trees.insertIdx index tree = trees.take index ++ tree :: trees.drop index := by
  induction index generalizing trees with
  | zero => rfl
  | succ index ih =>
    cases trees with
    | nil => cases inside
    | cons head rest =>
      rw [List.insertIdx_succ_cons, ih (Nat.le_of_succ_le_succ inside)]
      rfl

theorem children_insertChild_of_le {body child : Tree} {index : Nat} (inside : index ≤ body.children.length) :
    (body.insertChild index child).children = body.children.take index ++ child :: body.children.drop index := by
  rw [insertChild, children_node, Nat.min_eq_left inside, insertIdx_eq_append _ inside]

@[simp] theorem offsetAt_nil (tree : Tree) : tree.offsetAt [] = 0 := by
  rw [offsetAt]

theorem offsetAt_cons {tree child : Tree} {index : Nat} (known : tree.children[index]? = some child)
    (path : List Nat) :
    tree.offsetAt (index :: path) = widths (tree.children.take index) + child.offsetAt path := by
  rw [offsetAt, known]

theorem width_split {tree child : Tree} {index : Nat} (known : tree.children[index]? = some child) :
    tree.width = widths (tree.children.take index) + child.width + widths (tree.children.drop (index + 1)) := by
  rw [width_eq_widths (children_ne_nil known)]
  conv => lhs; rw [split_at known]
  rw [widths_append, widths, Nat.add_assoc]

theorem offsetAt_append {tree found : Tree} {path : List Nat} (present : tree.get? path = some found)
    (below : List Nat) : tree.offsetAt (path ++ below) = tree.offsetAt path + found.offsetAt below := by
  induction path generalizing tree with
  | nil => rw [get?_nil] at present; cases present; simp
  | cons index path ih =>
    obtain ⟨child, known, rest⟩ := get?_cons_eq_some.mp present
    rw [List.cons_append, offsetAt_cons known, offsetAt_cons known, ih rest, Nat.add_assoc]

theorem offsetAt_add_width_le {tree found : Tree} {path : List Nat} (present : tree.get? path = some found) :
    tree.offsetAt path + found.width ≤ tree.width := by
  induction path generalizing tree with
  | nil => rw [get?_nil] at present; cases present; simp
  | cons index path ih =>
    obtain ⟨child, known, rest⟩ := get?_cons_eq_some.mp present
    have inner := ih rest
    rw [offsetAt_cons known, width_split known]
    omega

theorem widths_take_le {trees : List Tree} {child : Tree} {first second : Nat}
    (known : trees[first]? = some child) (before : first < second) :
    widths (trees.take first) + child.width ≤ widths (trees.take second) := by
  have inside : (trees.take second)[first]? = some child := by
    rw [List.getElem?_take_of_lt before, known]
  conv => rhs; rw [split_at inside]
  rw [List.take_take, Nat.min_eq_left (Nat.le_of_lt before), widths_append, widths]
  omega

/-- Where the two paths part, the first one turns off before the second. -/
def Precedes : List Nat → List Nat → Prop
  | index :: path, position :: other => index < position ∨ (index = position ∧ Precedes path other)
  | _, _ => False

theorem apart_iff_precedes {first second : List Nat} :
    Apart first second ↔ Precedes first second ∨ Precedes second first := by
  induction first generalizing second with
  | nil => simp [Apart, Precedes]
  | cons index first ih =>
    cases second with
    | nil => simp [Apart, Precedes]
    | cons position second =>
      by_cases same : index = position
      · subst position
        simpa [Apart, Precedes] using @ih second
      · have ordered := Nat.lt_or_gt_of_ne same
        simp only [Apart, Precedes, List.cons_prefix_cons, same, Ne.symm same, false_and, or_false, not_false_eq_true,
          and_self, true_iff]
        exact ordered

/-- A place that comes before another one ends before that one starts. -/
theorem Precedes.offset_le {tree first second : Tree} {path other : List Nat} (order : Precedes path other)
    (present : tree.get? path = some first) (found : tree.get? other = some second) :
    tree.offsetAt path + first.width ≤ tree.offsetAt other := by
  induction path generalizing tree other with
  | nil => exact order.elim
  | cons index path ih =>
    cases other with
    | nil => exact order.elim
    | cons position other =>
      obtain ⟨left, knownLeft, restLeft⟩ := get?_cons_eq_some.mp present
      obtain ⟨right, knownRight, restRight⟩ := get?_cons_eq_some.mp found
      rw [offsetAt_cons knownLeft, offsetAt_cons knownRight]
      have inside := offsetAt_add_width_le restLeft
      rcases order with before | ⟨rfl, below⟩
      · have gap := widths_take_le knownLeft before
        omega
      · rw [knownLeft] at knownRight
        cases knownRight
        have inner := ih below restLeft restRight
        omega

/-- Of two places apart one ends before the other starts. -/
theorem disjoint_of_apart {tree first second : Tree} {path other : List Nat} (apart : Apart path other)
    (present : tree.get? path = some first) (found : tree.get? other = some second) :
    tree.offsetAt path + first.width ≤ tree.offsetAt other ∨
      tree.offsetAt other + second.width ≤ tree.offsetAt path :=
  (apart_iff_precedes.mp apart).imp (fun order => order.offset_le present found)
    (fun order => order.offset_le found present)

private theorem widths_take_set {trees : List Tree} {child : Tree} {index position : Nat}
    (known : trees[index]? = some child) (before : index < position) (other : Tree) :
    widths ((trees.set index other).take position) + child.width = widths (trees.take position) + other.width := by
  have inside : (trees.take position)[index]? = some child := by
    rw [List.getElem?_take_of_lt before, known]
  conv => rhs; rw [split_at inside]
  rw [List.take_set, set_split inside, widths_append, widths_append, widths, widths]
  omega

theorem width_replaceAt {tree found : Tree} {path : List Nat} (present : tree.get? path = some found)
    (replacement : Tree) : (tree.replaceAt path replacement).width + found.width = tree.width + replacement.width := by
  induction path generalizing tree with
  | nil =>
    rw [get?_nil] at present
    cases present
    rw [replaceAt_nil, Nat.add_comm]
  | cons index path ih =>
    obtain ⟨child, known, rest⟩ := get?_cons_eq_some.mp present
    have inner := ih rest
    rw [replaceAt_cons known, width, set_split known, widths_append, widths, width_split known]
    omega

section
variable {tree found other : Tree} {path place : List Nat} (present : tree.get? path = some found)
  (known : tree.get? place = some other) (replacement : Tree)

include present known

/-- A replacement leaves the start of what comes before it. -/
theorem Precedes.offsetAt_before (order : Precedes place path) :
    (tree.replaceAt path replacement).offsetAt place = tree.offsetAt place := by
  induction path generalizing tree place with
  | nil => cases place <;> exact order.elim
  | cons index path ih =>
    cases place with
    | nil => exact order.elim
    | cons position place =>
      obtain ⟨left, knownLeft, restLeft⟩ := get?_cons_eq_some.mp present
      obtain ⟨right, knownRight, restRight⟩ := get?_cons_eq_some.mp known
      rcases order with before | ⟨rfl, below⟩
      · have kept : (tree.replaceAt (index :: path) replacement).children[position]? = some right := by
          rw [children_replaceAt_cons knownLeft, List.getElem?_set_ne (by omega), knownRight]
        rw [offsetAt_cons kept, offsetAt_cons knownRight, children_replaceAt_cons knownLeft,
          List.take_set_of_le (by omega)]
      · rw [knownLeft] at knownRight
        cases knownRight
        have changed : (tree.replaceAt (position :: path) replacement).children[position]? =
            some (left.replaceAt path replacement) := by
          rw [children_replaceAt_cons knownLeft, List.getElem?_set_self (List.getElem?_eq_some_iff.mp knownLeft).1]
        rw [offsetAt_cons changed, offsetAt_cons knownLeft, children_replaceAt_cons knownLeft,
          List.take_set_of_le (Nat.le_refl position), ih restLeft restRight below]

/-- What comes behind a replacement moves by what the replacement is longer or shorter. -/
theorem Precedes.offsetAt_behind (order : Precedes path place) :
    (tree.replaceAt path replacement).offsetAt place + found.width = tree.offsetAt place + replacement.width := by
  induction path generalizing tree place with
  | nil => exact order.elim
  | cons index path ih =>
    cases place with
    | nil => exact order.elim
    | cons position place =>
      obtain ⟨left, knownLeft, restLeft⟩ := get?_cons_eq_some.mp present
      obtain ⟨right, knownRight, restRight⟩ := get?_cons_eq_some.mp known
      rcases order with before | ⟨rfl, below⟩
      · have kept : (tree.replaceAt (index :: path) replacement).children[position]? = some right := by
          rw [children_replaceAt_cons knownLeft, List.getElem?_set_ne (by omega), knownRight]
        have moved := widths_take_set knownLeft before (left.replaceAt path replacement)
        have longer := width_replaceAt restLeft replacement
        rw [offsetAt_cons kept, offsetAt_cons knownRight, children_replaceAt_cons knownLeft]
        omega
      · rw [knownLeft] at knownRight
        cases knownRight
        have changed : (tree.replaceAt (index :: path) replacement).children[index]? =
            some (left.replaceAt path replacement) := by
          rw [children_replaceAt_cons knownLeft, List.getElem?_set_self (List.getElem?_eq_some_iff.mp knownLeft).1]
        have moved := ih restLeft restRight below
        rw [offsetAt_cons changed, offsetAt_cons knownLeft, children_replaceAt_cons knownLeft,
          List.take_set_of_le (Nat.le_refl index)]
        omega

end

/-- A replacement leaves the start of every place that is not behind it. -/
theorem offsetAt_replaceAt {tree found other : Tree} {path place : List Nat} (apart : Apart path place)
    (present : tree.get? path = some found) (known : tree.get? place = some other)
    (before : tree.offsetAt place + other.width ≤ tree.offsetAt path) (wide : 0 < other.width)
    (replacement : Tree) : (tree.replaceAt path replacement).offsetAt place = tree.offsetAt place := by
  rcases apart_iff_precedes.mp apart with behind | ahead
  · have gap := behind.offset_le present known
    omega
  · exact ahead.offsetAt_before present known replacement

theorem width_eq_utf8ByteSize {tree : Tree} (shape : tree.WellFormed) : tree.width = tree.text.utf8ByteSize := by
  induction tree with
  | token kind leading text =>
    simp only [WellFormed] at shape
    simp [width, Tree.text, shape, String.utf8ByteSize_append]
  | node kind children ih =>
    obtain ⟨inner, below⟩ := (wellFormed_node kind children).mp shape
    have tally : ∀ trees : List Tree, (∀ tree ∈ trees, tree.width = tree.text.utf8ByteSize) →
        widths trees = (texts trees).utf8ByteSize := by
      intro trees each
      induction trees with
      | nil => simp [widths, texts]
      | cons tree rest step =>
        rw [widths, texts, String.utf8ByteSize_append, each tree (by simp),
          step (fun other member => each other (by simp [member]))]
    simp only [width, Tree.text, inner, Bool.false_eq_true, if_false]
    exact tally children (fun child member => ih child member (below child member))

def textBefore (tree : Tree) : List Nat → String
  | [] => ""
  | index :: path =>
    texts (tree.children.take index) ++
      match tree.children[index]? with
      | some child => child.textBefore path
      | none => ""

def textAfter (tree : Tree) : List Nat → String
  | [] => ""
  | index :: path =>
    (match tree.children[index]? with
      | some child => child.textAfter path
      | none => "") ++
      texts (tree.children.drop (index + 1))

@[simp] theorem textBefore_nil (tree : Tree) : tree.textBefore [] = "" := by
  rw [textBefore]

@[simp] theorem textAfter_nil (tree : Tree) : tree.textAfter [] = "" := by
  rw [textAfter]

section
variable {tree child : Tree} {index : Nat} (known : tree.children[index]? = some child)

include known

theorem textBefore_cons (path : List Nat) :
    tree.textBefore (index :: path) = texts (tree.children.take index) ++ child.textBefore path := by
  rw [textBefore, known]

theorem textAfter_cons (path : List Nat) :
    tree.textAfter (index :: path) = child.textAfter path ++ texts (tree.children.drop (index + 1)) := by
  rw [textAfter, known]

theorem inner_of_child (shape : tree.WellFormed) : tree.kind.isToken = false := by
  cases tree with
  | token kind leading text => cases known
  | node kind children => exact ((wellFormed_node kind children).mp shape).1

end

/-- Nothing stands below a token. -/
theorem path_of_isToken {tree found : Tree} {path : List Nat} (shape : tree.WellFormed) (isToken : tree.kind.isToken)
    (present : tree.get? path = some found) : path = [] := by
  cases path with
  | nil => rfl
  | cons index path =>
    obtain ⟨child, known, _⟩ := get?_cons_eq_some.mp present
    rw [inner_of_child known shape] at isToken
    cases isToken

section
variable {tree found : Tree} {path : List Nat} (shape : tree.WellFormed) (present : tree.get? path = some found)

include shape present

theorem size_textBefore : (tree.textBefore path).utf8ByteSize = tree.offsetAt path := by
  induction path generalizing tree with
  | nil => simp
  | cons index path ih =>
    obtain ⟨child, known, rest⟩ := get?_cons_eq_some.mp present
    have early : widths (tree.children.take index) = (texts (tree.children.take index)).utf8ByteSize := by
      have part : (node .unknown (tree.children.take index)).WellFormed :=
        (wellFormed_node _ _).mpr ⟨rfl, fun other member => shape.child (List.mem_of_mem_take member)⟩
      have size := width_eq_utf8ByteSize part
      simpa [width, Tree.text, Kind.isToken] using size
    rw [textBefore_cons known, String.utf8ByteSize_append, ih (shape.child (List.mem_of_getElem? known)) rest,
      offsetAt_cons known, early]

/-- A replacement leaves the text around its place as it is. -/
theorem text_replaceAt (replacement : Tree) :
    (tree.replaceAt path replacement).text = tree.textBefore path ++ replacement.text ++ tree.textAfter path := by
  induction path generalizing tree with
  | nil => simp
  | cons index path ih =>
    obtain ⟨child, known, rest⟩ := get?_cons_eq_some.mp present
    rw [replaceAt_cons known, set_split known]
    simp only [Tree.text, inner_of_child known shape, Bool.false_eq_true, if_false, texts_append, texts,
      ih (shape.child (List.mem_of_getElem? known)) rest, textBefore_cons known, textAfter_cons known,
      String.append_assoc]

theorem text_around : tree.text = tree.textBefore path ++ found.text ++ tree.textAfter path := by
  rw [← text_replaceAt shape present, replaceAt_self present]

theorem text_split :
    ∃ before after, before.utf8ByteSize = tree.offsetAt path ∧ tree.text = before ++ found.text ++ after ∧
      ∀ replacement, (tree.replaceAt path replacement).text = before ++ replacement.text ++ after :=
  ⟨_, _, size_textBefore shape present, text_around shape present, text_replaceAt shape present⟩

end

end TreeLint.Tree
