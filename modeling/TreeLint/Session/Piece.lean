import TreeLint.Fix.Edit
import TreeLint.Tree.Build

/-! Pieces: trees together with the places in them where one certain tree stands that is being
followed. New trees take over parts of old ones as they are, while every node on the way to a
change is made anew; so the followed tree stays at its places until something inside it is
changed, and a look-alike made in another way does not count. -/

namespace TreeLint

namespace Tree

mutual

/-- The way to the first token in source order. -/
def firstTokenPath? : Tree → Option (List Nat)
  | token kind _ _ => if kind.isToken then some [] else none
  | node kind children => if kind.isToken then some [] else firstTokenPathOf? 0 children

/-- The way to the first token of children that are counted from `index` on. -/
def firstTokenPathOf? (index : Nat) : List Tree → Option (List Nat)
  | [] => none
  | tree :: rest =>
    match tree.firstTokenPath? with
    | some path => some (index :: path)
    | none => firstTokenPathOf? (index + 1) rest

end

mutual

def alike : Tree → Tree → Bool
  | token kind leading text, token otherKind otherLeading otherText =>
    kind = otherKind && leading = otherLeading && text = otherText
  | node kind children, node otherKind otherChildren =>
    kind = otherKind && allAlike children otherChildren
  | _, _ => false

def allAlike : List Tree → List Tree → Bool
  | [], [] => true
  | tree :: rest, other :: others => tree.alike other && allAlike rest others
  | _, _ => false

end

end Tree

structure Piece where
  tree : Tree
  /-- Where the followed tree stands. -/
  places : List (List Nat)

namespace Piece

def ofTree (tree : Tree) : Piece := ⟨tree, []⟩

def followed (tree : Tree) : Piece := ⟨tree, [[]]⟩

def isFollowed (piece : Piece) : Bool :=
  piece.places.contains []

/-- Whether one of two places lies on the way to the other. -/
def onOneWay (first second : List Nat) : Bool :=
  first.isPrefixOf second || second.isPrefixOf first

def get? (piece : Piece) (path : List Nat) : Option Piece :=
  (piece.tree.get? path).map fun tree =>
    ⟨tree, (piece.places.filter (path.isPrefixOf ·)).map (·.drop path.length)⟩

/-- The places in pieces that stand side by side from `index` on. -/
def placesFrom (index : Nat) : List Piece → List (List Nat)
  | [] => []
  | piece :: rest => piece.places.map (index :: ·) ++ placesFrom (index + 1) rest

/-- The piece with `trivia` in front of its first token. Without a token it is the same piece. -/
def withLeading (trivia : String) (piece : Piece) : Piece :=
  match piece.tree.firstTokenPath? with
  | some path =>
    ⟨piece.tree.withLeading trivia, piece.places.filter fun place => !onOneWay place path⟩
  | none => piece

def replaceChild (piece : Piece) (index : Nat) (child : Piece) : Piece :=
  let kept := piece.places.filter fun place => !onOneWay place [index]
  let new := if index < piece.tree.children.length then placesFrom index [child] else []
  ⟨piece.tree.replaceChild index child.tree, kept ++ new⟩

/-- The piece with `child` in front of its child at `index`, or behind the last one. -/
def insertChild (piece : Piece) (index : Nat) (child : Piece) : Piece :=
  let index := min index piece.tree.children.length
  let kept := piece.places.filterMap fun place =>
    match place with
    | [] => none
    | first :: below => some ((if index ≤ first then first + 1 else first) :: below)
  ⟨piece.tree.insertChild index child.tree, kept ++ placesFrom index [child]⟩

def replaceAt (piece : Piece) (path : List Nat) (replacement : Piece) : Piece :=
  ⟨piece.tree.replaceAt path replacement.tree,
    piece.places.filter (fun place => !onOneWay place path) ++
      replacement.places.map (path ++ ·)⟩

/-- A tree made from the piece by changes in some places. The followed tree stands where it did if
nothing has changed there. -/
def changedTo (piece : Piece) (tree : Tree) : Piece :=
  ⟨tree, piece.places.filter fun place =>
    match piece.tree.get? place, tree.get? place with
    | some before, some after => before.alike after
    | _, _ => false⟩

/-- Carries out one edit, whose replacement has the followed tree at the given places. -/
def carryOut (piece : Piece) (edit : Edit) (places : List (List Nat)) : Piece :=
  match piece.tree.covering edit.kind edit.span with
  | .ok target =>
    let replacement : Piece := ⟨edit.replacement, places⟩
    piece.replaceAt target.path (replacement.withLeading target.tree.leading)
  | .error _ => piece

def declarator (name : String) (value : Option Piece) : Piece :=
  ⟨Build.declarator name (value.map Piece.tree),
    placesFrom 2 (value.toList.map (Piece.withLeading " "))⟩

def declaration (keyword : String) (first : Piece) (rest : List Piece) : Piece :=
  ⟨Build.declaration keyword first.tree (rest.map Piece.tree),
    placesFrom 1 (first.withLeading " " :: rest)⟩

def returnStatement (value : Piece) : Piece :=
  ⟨Build.returnStatement value.tree, placesFrom 1 [value.withLeading " "]⟩

def block (statements : List Piece) (indent : Option String) : Piece :=
  ⟨Build.block (statements.map Piece.tree) indent,
    placesFrom 1 (statements.map (Piece.withLeading " "))⟩

def method (keywords : List String) (returnType name : String) (body : Piece) : Piece :=
  ⟨Build.method keywords returnType name body.tree, placesFrom (keywords.length + 3) [body]⟩

end Piece

end TreeLint
