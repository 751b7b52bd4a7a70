import TreeLint.Tree.Node

/-! Looking nodes up by where they stand. An offset leads to the token whose bytes, trivia included,
hold it. A kind and a span lead back to a node that was seen before: among the token at the start
of the span and the nodes around it, the innermost one with that kind and span. -/

namespace TreeLint

inductive LookupError where
  /-- The offset lies past the end of the text. -/
  | outside (offset : Nat)
  /-- No node of this kind covers exactly this span. -/
  | unmatched (kind : Kind) (span : Span)
  deriving DecidableEq

def LookupError.message : LookupError → String
  | outside offset => s!"no node at offset {offset}"
  | unmatched kind span => s!"no {kind.name} node spans {span.display}"

namespace Tree

mutual

/-- The path from a tree to its innermost subtree that holds the byte `offset` bytes after the
start of the tree. -/
def pathTo : Tree → Nat → List Nat
  | token .., _ => []
  | node _ children, offset => pathAmong children 0 offset

def pathAmong : List Tree → Nat → Nat → List Nat
  | [], _, _ => []
  | tree :: rest, index, offset =>
    if offset < tree.width then index :: tree.pathTo offset
    else pathAmong rest (index + 1) (offset - tree.width)

end

/-- The innermost node whose bytes, trivia included, hold `offset`. -/
def findAt (root : Tree) (offset : Nat) : Except LookupError Node :=
  if offset < root.width then
    match root.nodeAt? (root.pathTo offset) with
    | some found => .ok found
    | none => .error (.outside offset)
  else .error (.outside offset)

/-- The innermost node around the byte at the start of `span` that has this kind and exactly this
span. -/
def covering (root : Tree) (kind : Kind) (span : Span) : Except LookupError Node :=
  match root.findAt span.start with
  | .error failure => .error failure
  | .ok inner =>
    match inner.ancestorsAndSelf.find? fun around => around.kind = kind && around.span = span with
    | some found => .ok found
    | none => .error (.unmatched kind span)

end Tree

end TreeLint
