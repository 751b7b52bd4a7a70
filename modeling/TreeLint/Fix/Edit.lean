import TreeLint.Tree.Lookup

/-! Edits. An edit names the node it replaces by kind and span, not by its path, so that a list of
edits made for one tree can be carried out one after the other. They are carried out from the back
of the text to its front: then the spans of those still to come stay where they are. -/

namespace TreeLint

structure Edit where
  kind : Kind
  /-- The bytes of the node to replace, without the trivia in front of it. -/
  span : Span
  /-- The new node. It takes over the trivia in front of the one it replaces. -/
  replacement : Tree

inductive EditError where
  | overlapping (first second : Nat)
  | outOfBounds (index stop length : Nat)
  | noTarget (index : Nat) (cause : LookupError)
  deriving DecidableEq

def EditError.message : EditError → String
  | overlapping first second => s!"overlapping edits at indices {first} and {second}"
  | outOfBounds index stop length =>
    s!"edit {index} out of bounds: end {stop} > tree length {length}"
  | noTarget index cause => s!"edit {index} has no target: {cause.message}"

namespace Edit

def replacing (target : Node) (replacement : Tree) : Edit :=
  ⟨target.kind, target.span, replacement⟩

def overlaps (first second : Edit) : Bool :=
  first.span.overlaps second.span

/-- The first edit that reaches past the end of the text. -/
def outOfBounds? (tree : Tree) (edits : List (Edit × Nat)) : Option EditError :=
  edits.findSome? fun (edit, index) =>
    if tree.width < edit.span.stop then some (.outOfBounds index edit.span.stop tree.width)
    else none

/-- The first two edits that overlap: the first edit that overlaps a later one, and the first of
those. -/
def overlapping? : List (Edit × Nat) → Option EditError
  | [] => none
  | (edit, index) :: rest =>
    match rest.find? fun (other, _) => edit.overlaps other with
    | some (_, other) => some (.overlapping index other)
    | none => overlapping? rest

/-- The first edit whose node is not in the tree. -/
def noTarget? (tree : Tree) (edits : List (Edit × Nat)) : Option EditError :=
  edits.findSome? fun (edit, index) =>
    match tree.covering edit.kind edit.span with
    | .ok _ => none
    | .error cause => some (.noTarget index cause)

/-- What is wrong with a list of edits. An edit out of bounds is reported before an overlap, and an
overlap before a missing target. -/
def objection? (tree : Tree) (edits : List Edit) : Option EditError :=
  let numbered := edits.zipIdx
  (outOfBounds? tree numbered).or ((overlapping? numbered).or (noTarget? tree numbered))

def carryOut (tree : Tree) (numbered : Edit × Nat) : Except EditError Tree :=
  match tree.covering numbered.1.kind numbered.1.span with
  | .ok target => .ok (target.replaceWith (numbered.1.replacement.withLeading target.tree.leading))
  | .error cause => .error (.noTarget numbered.2 cause)

/-- Edits from the back of the text to its front; edits that start at the same place keep their
order. -/
def backToFront (edits : List Edit) : List (Edit × Nat) :=
  edits.zipIdx.mergeSort fun first second => second.1.span.start ≤ first.1.span.start

/-- Carries out all edits, or none if there is something wrong with one of them. -/
def applyAll (tree : Tree) (edits : List Edit) : Except EditError Tree :=
  match objection? tree edits with
  | some objection => .error objection
  | none => (backToFront edits).foldlM carryOut tree

end Edit

end TreeLint
