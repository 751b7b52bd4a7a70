import TreeLint.Fix.Batch
import TreeLint.Session.Piece

/-! Editing sessions. A session starts with a tree and replaces it by edits and fixes; an edit that
fails leaves it as it was. Nodes of the first tree are nodes of the current one only while the
current tree is that very tree, untouched or put back as a whole. -/

namespace TreeLint

structure Session where
  initial : Tree
  /-- The current tree, in which the first one is followed. -/
  current : Piece

/-- An edit, and where the first tree of a session stands in the replacement. -/
structure TracedEdit where
  edit : Edit
  places : List (List Nat)

namespace Session

def start (tree : Tree) : Session :=
  ⟨tree, .followed tree⟩

def tree (session : Session) : Tree :=
  session.current.tree

/-- Whether the nodes of the first tree are nodes of the current one. -/
def ownsInitial (session : Session) : Bool :=
  session.current.isFollowed

/-- Puts a piece where a node of the current tree stands. -/
def replace (session : Session) (node : Node) (replacement : Piece) : Session :=
  { session with current := session.current.replaceAt node.path replacement }

def edit (session : Session) (edits : List TracedEdit) : Except EditError Session :=
  let plain := edits.map TracedEdit.edit
  match Edit.applyAll session.tree plain with
  | .ok _ =>
    let carryOut (piece : Piece) (numbered : Edit × Nat) : Piece :=
      piece.carryOut numbered.1 ((edits[numbered.2]?.map TracedEdit.places).getD [])
    .ok { session with current := (Edit.backToFront plain).foldl carryOut session.current }
  | .error cause => .error cause

def fix (session : Session) (ruleId : String) (span : Span) : Except FixError Session :=
  match applyFix session.tree ruleId span with
  | .ok tree => .ok { session with current := session.current.changedTo tree }
  | .error cause => .error cause

/-- Takes over what came out of fixing the current tree. -/
def settle (session : Session) (outcome : FixOutcome) : Session :=
  if outcome.changed then { session with current := session.current.changedTo outcome.tree }
  else session

end Session

end TreeLint
