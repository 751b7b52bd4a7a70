import TreeLint.Proofs.Simulation

/-! Putting a new child between the children of a node. The children behind it move by one, and with them all that
is below; every other place stays where it is. If nothing in the new child can be found by a lookup, and it does
not show from outside, the new tree simulates the old one. -/

namespace TreeLint

namespace Tree

def pushed (index position : Nat) : Nat :=
  if position < index then position else position + 1

/-- The path to a place after a child was put in front of the child at `index` of the node at `place`. -/
def shifted : List Nat → Nat → List Nat → List Nat
  | _, _, [] => []
  | [], index, position :: path => pushed index position :: path
  | step :: place, index, position :: path =>
    position :: if step = position then shifted place index path else path

section
variable (place : List Nat) (index : Nat)

theorem shifted_of_above {path : List Nat} (above : path <+: place) : shifted place index path = path := by
  induction place generalizing path with
  | nil => rw [List.prefix_nil.mp above, shifted]
  | cons step place ih =>
    cases path with
    | nil => rw [shifted]
    | cons position path =>
      obtain ⟨rfl, rest⟩ := List.cons_prefix_cons.mp above
      rw [shifted, if_pos rfl, ih rest]

theorem shifted_below (position : Nat) (path : List Nat) :
    shifted place index (place ++ position :: path) = place ++ pushed index position :: path := by
  induction place with
  | nil => rfl
  | cons step place ih => rw [List.cons_append, shifted, if_pos rfl, ih, List.cons_append]

theorem shifted_concat {path : List Nat} (other : path ≠ place) (position : Nat) :
    shifted place index (path ++ [position]) = shifted place index path ++ [position] := by
  induction place generalizing path with
  | nil =>
    cases path with
    | nil => exact absurd rfl other
    | cons first path => rfl
  | cons step place ih =>
    cases path with
    | nil =>
      simp [shifted]
    | cons first path =>
      rw [List.cons_append, shifted, shifted, List.cons_append]
      split
      next same => rw [ih fun equal => other (by rw [same, equal])]
      next => rfl

end

theorem getElem?_insertChild {body child : Tree} {index : Nat} (inside : index ≤ body.children.length) (position : Nat) :
    (body.insertChild index child).children[pushed index position]? = body.children[position]? := by
  rw [insertChild, children_node, Nat.min_eq_left inside, List.getElem?_insertIdx, pushed]
  split
  next => rfl
  next behind => rw [if_neg (by omega), if_neg (by omega), Nat.add_sub_cancel]

theorem get?_shifted {tree body : Tree} {place path : List Nat} {index : Nat} (child : Tree)
    (present : tree.get? place = some body) (inside : index ≤ body.children.length) (off : ¬ path <+: place) :
    (tree.replaceAt place (body.insertChild index child)).get? (shifted place index path) = tree.get? path := by
  induction place generalizing tree path with
  | nil =>
    rw [get?_nil] at present
    cases present
    cases path with
    | nil => exact absurd List.nil_prefix off
    | cons position path => rw [replaceAt_nil, shifted, get?_cons, getElem?_insertChild inside, ← get?_cons]
  | cons step place ih =>
    cases path with
    | nil => exact absurd List.nil_prefix off
    | cons position path =>
      obtain ⟨middle, known, rest⟩ := get?_cons_eq_some.mp present
      rw [shifted, get?_cons, get?_cons, children_replaceAt_cons known]
      by_cases same : step = position
      · subst position
        rw [if_pos rfl, List.getElem?_set_self (List.getElem?_eq_some_iff.mp known).1, known, Option.bind_some,
          Option.bind_some]
        exact ih rest fun above => off (List.cons_prefix_cons.mpr ⟨rfl, above⟩)
      · rw [if_neg same, List.getElem?_set_ne same]

/-- A tree with a new child in it that no lookup stops at, and that shows in no signature. -/
structure Inserted (tree later : Tree) (place : List Nat) (index : Nat) (body child : Tree) : Prop where
  present : tree.get? place = some body
  inside : index ≤ body.children.length
  later_eq : later = tree.replaceAt place (body.insertChild index child)
  silent : child.Silent
  unseen : ∀ path below found, path ++ below = place → tree.get? path = some found →
    (found.replaceAt below (body.insertChild index child)).signature = found.signature

end Tree

open TreeLint.Tree

def Node.shifted (later : Tree) (place : List Nat) (index : Nat) (node : Node) : Node :=
  ⟨later, Tree.shifted place index node.path, (later.get? (Tree.shifted place index node.path)).getD node.tree⟩

namespace Tree.Inserted

variable {tree later : Tree} {place : List Nat} {index : Nat} {body child : Tree}
  (inserted : Inserted tree later place index body child)

include inserted

theorem get?_off {path : List Nat} (off : ¬ path <+: place) : later.get? (shifted place index path) = tree.get? path := by
  rw [inserted.later_eq]
  exact get?_shifted child inserted.present inserted.inside off

theorem get?_above {path below : List Nat} {found : Tree} (split : path ++ below = place)
    (known : tree.get? path = some found) :
    later.get? (shifted place index path) = some (found.replaceAt below (body.insertChild index child)) := by
  rw [shifted_of_above place index ⟨below, split⟩, inserted.later_eq, ← split]
  exact get?_replaceAt_above known below _

theorem image_off {node : Node} (held : tree.Holds node) (off : ¬ node.path <+: place) :
    node.shifted later place index = ⟨later, shifted place index node.path, node.tree⟩ := by
  rw [Node.shifted, inserted.get?_off off, held.present, Option.getD_some]

theorem image_above {node : Node} {below : List Nat} (held : tree.Holds node) (split : node.path ++ below = place) :
    node.shifted later place index = ⟨later, node.path, node.tree.replaceAt below (body.insertChild index child)⟩ := by
  rw [Node.shifted, inserted.get?_above split held.present, Option.getD_some, shifted_of_above place index ⟨below, split⟩]

/-- Elsewhere than in the node that got the child, the children are those that were there. -/
theorem children_image {node : Node} (held : tree.Holds node) (other : node.path ≠ place) :
    (node.shifted later place index).children = node.children.map (Node.shifted later place index) := by
  have alike : later.get? (shifted place index node.path) = some (node.shifted later place index).tree ∧
      (node.shifted later place index).tree.children.length = node.tree.children.length := by
    by_cases above : node.path <+: place
    · obtain ⟨below, split⟩ := above
      rw [inserted.image_above held split, inserted.get?_above split held.present]
      refine ⟨rfl, ?_⟩
      cases below with
      | nil => exact absurd (by simpa using split) other
      | cons step below =>
        have known := inserted.present
        rw [← split, get?_append, held.present, Option.bind_some] at known
        obtain ⟨middle, here, _⟩ := get?_cons_eq_some.mp known
        rw [children_replaceAt_cons here, List.length_set]
    · rw [inserted.image_off held above, inserted.get?_off above, held.present]
      exact ⟨rfl, rfl⟩
  apply List.ext_getElem?
  intro position
  rw [List.getElem?_map, Node.children_getElem?, Node.children_getElem?]
  cases known : node.tree.children[position]? with
  | none =>
    rw [List.getElem?_eq_none_iff] at known
    rw [List.getElem?_eq_none_iff.mpr (by omega)]
    rfl
  | some piece =>
    have inside : position < (node.shifted later place index).tree.children.length := by
      have old := (List.getElem?_eq_some_iff.mp known).1
      omega
    have there := List.getElem?_eq_getElem inside
    rw [there]
    simp only [Option.map_some, Node.shifted, shifted_concat place index other]
    rw [get?_concat alike.1 there]
    rfl

private theorem children_image_self {node : Node} (held : tree.Holds node) (here : node.path = place) :
    (node.shifted later place index).children =
      (node.children.take index).map (Node.shifted later place index) ++ [⟨later, place ++ [index], child⟩] ++
        (node.children.drop index).map (Node.shifted later place index) := by
  obtain rfl := here
  have same : node.tree = body := Option.some.inj (held.present.symm.trans inserted.present)
  have image : node.shifted later node.path index = ⟨later, node.path, body.insertChild index child⟩ := by
    rw [inserted.image_above held (List.append_nil node.path), replaceAt_nil]
  -- A child is found again at the index that it was pushed to.
  have each (position : Nat) : (node.children[position]?).map (Node.shifted later node.path index) =
      ((body.insertChild index child).children[pushed index position]?).map fun piece =>
        ⟨later, node.path ++ [pushed index position], piece⟩ := by
    rw [getElem?_insertChild inserted.inside, Node.children_getElem?, same, Option.map_map]
    cases known : body.children[position]? with
    | none => rfl
    | some piece =>
      have standing : tree.Holds ⟨node.root, node.path ++ [position], piece⟩ := by
        refine ⟨held.root_eq, ?_⟩
        rw [Node.Valid, held.root_eq]
        exact get?_concat inserted.present known
      have off : ¬ node.path ++ [position] <+: node.path := fun above => by
        have short := above.length_le
        rw [List.length_append, List.length_singleton] at short
        omega
      rw [Option.map_some, Option.map_some, Function.comp_apply, inserted.image_off standing off, shifted_below]
  have long : index ≤ node.children.length := by
    rw [Node.children, List.length_mapIdx, same]
    exact inserted.inside
  have front : ((node.children.take index).map (Node.shifted later node.path index)).length = index := by
    rw [List.length_map, List.length_take, Nat.min_eq_left long]
  rw [image]
  apply List.ext_getElem?
  intro position
  rw [Node.children_getElem?]
  rcases Nat.lt_trichotomy position index with before | rfl | behind
  · have passed := each position
    rw [pushed, if_pos before] at passed
    rw [List.append_assoc, List.getElem?_append_left (by omega), List.getElem?_map, List.getElem?_take_of_lt before,
      passed]
  · rw [List.append_assoc, List.getElem?_append_right (by omega), front, Nat.sub_self, insertChild, children_node,
      Nat.min_eq_left inserted.inside, List.getElem?_insertIdx_self, if_pos inserted.inside]
    rfl
  · obtain ⟨old, rfl⟩ : ∃ old, position = old + 1 := ⟨position - 1, by omega⟩
    have passed := each old
    rw [pushed, if_neg (by omega)] at passed
    rw [List.getElem?_append_right (by rw [List.length_append, front]; exact behind), List.length_append, front,
      List.getElem?_map, List.getElem?_drop, ← passed]
    congr 2
    rw [List.length_singleton]
    omega

/-- The new tree shows lookups the same as the old one. -/
theorem simulation : Simulation tree later (Node.shifted later place index) where
  root := by
    have split : tree.asNode.path ++ place = place := rfl
    rw [inserted.image_above (holds_asNode tree) split, inserted.later_eq]
    rfl
  signature := by
    intro node held
    by_cases above : node.path <+: place
    · obtain ⟨below, split⟩ := above
      rw [inserted.image_above held split]
      exact inserted.unseen node.path below node.tree split held.present
    · rw [inserted.image_off held above]
  children := by
    intro node held
    by_cases here : node.path = place
    · rw [inserted.children_image_self held here, ← List.take_append_drop index node.children, List.map_append,
        List.take_append_drop, List.append_assoc]
      exact (Padded.refl _).append (.pad inserted.silent (.refl _))
    · rw [inserted.children_image held here]
      exact .refl _

end Tree.Inserted

end TreeLint
