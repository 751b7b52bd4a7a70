import TreeLint.Tree.Kind

/-! Lossless syntax trees. A token holds its own text and, as leading trivia, everything that
stands between the token before it and itself; a node holds its children in source order. Every
byte of a file therefore belongs to exactly one token, and the text of a tree is what its tokens
say, one after the other.

Widths and offsets count bytes and have no bound. They are what numbers of 32 bits give for all
texts shorter than 2^32 bytes; longer files are not meant.

A tree does not know where it stands in a file: places are `Node`s. -/

namespace TreeLint

inductive Tree where
  | token (kind : Kind) (leading text : String)
  | node (kind : Kind) (children : List Tree)

namespace Tree

def kind : Tree → Kind
  | token kind _ _ => kind
  | node kind _ => kind

def isToken (tree : Tree) : Bool :=
  tree.kind.isToken

def children : Tree → List Tree
  | token .. => []
  | node _ children => children

/-- The text of a token without its trivia; empty for a node. -/
def spelling : Tree → String
  | token _ _ text => text
  | node .. => ""

/-- The trivia stored at the root of the tree itself; empty for a node. -/
def ownLeading : Tree → String
  | token _ leading _ => leading
  | node .. => ""

mutual

/-- Tokens are leaves and all other kinds are nodes. Trees read from a file have this shape, and
every edit of this library keeps it. -/
def WellFormed : Tree → Prop
  | token kind _ _ => kind.isToken = true
  | node kind children => kind.isToken = false ∧ AllWellFormed children

def AllWellFormed : List Tree → Prop
  | [] => True
  | tree :: rest => tree.WellFormed ∧ AllWellFormed rest

end

mutual

/-- Number of bytes of the tree, trivia included. -/
def width : Tree → Nat
  | token _ leading text => leading.utf8ByteSize + text.utf8ByteSize
  | node _ children => widths children

def widths : List Tree → Nat
  | [] => 0
  | tree :: rest => tree.width + widths rest

end

mutual

def size : Tree → Nat
  | token .. => 1
  | node _ children => 1 + sizes children

def sizes : List Tree → Nat
  | [] => 0
  | tree :: rest => tree.size + sizes rest

end

mutual

def text : Tree → String
  | token kind leading text => if kind.isToken then leading ++ text else ""
  | node kind children => if kind.isToken then "" else texts children

def texts : List Tree → String
  | [] => ""
  | tree :: rest => tree.text ++ texts rest

end

mutual

def firstToken? : Tree → Option Tree
  | token kind leading text => if kind.isToken then some (token kind leading text) else none
  | node kind children => if kind.isToken then some (node kind children) else firstTokenOf? children

def firstTokenOf? : List Tree → Option Tree
  | [] => none
  | tree :: rest => tree.firstToken?.or (firstTokenOf? rest)

end

mutual

def tokens : Tree → List Tree
  | token kind leading text => if kind.isToken then [token kind leading text] else []
  | node kind children => if kind.isToken then [node kind children] else tokensOf children

def tokensOf : List Tree → List Tree
  | [] => []
  | tree :: rest => tree.tokens ++ tokensOf rest

end

/-- The trivia in front of the tree: that of its first token. -/
def leading (tree : Tree) : String :=
  match tree.firstToken? with
  | some first => first.ownLeading
  | none => ""

/-- The text of the tree without the trivia in front of it. -/
def trimmed (tree : Tree) : String :=
  String.ofList (tree.text.toList.drop tree.leading.length)

mutual

/-- The tree with `trivia` in front of its first token. A tree without tokens stays as it is. -/
def withLeading (trivia : String) : Tree → Tree
  | token kind leading text =>
    if kind.isToken then token kind trivia text else token kind leading text
  | node kind children =>
    if kind.isToken then token kind trivia "" else node kind (withLeadingFirst trivia children)

def withLeadingFirst (trivia : String) : List Tree → List Tree
  | [] => []
  | tree :: rest =>
    if tree.firstToken?.isSome then tree.withLeading trivia :: rest
    else tree :: withLeadingFirst trivia rest

end

/-- The tree with its child at `index` replaced; an index past the last child replaces none. -/
def replaceChild (tree : Tree) (index : Nat) (child : Tree) : Tree :=
  node tree.kind (tree.children.set index child)

/-- The tree with `child` in front of its child at `index`, or behind the last one. -/
def insertChild (tree : Tree) (index : Nat) (child : Tree) : Tree :=
  node tree.kind (tree.children.insertIdx (min index tree.children.length) child)

def get? (tree : Tree) : List Nat → Option Tree
  | [] => some tree
  | index :: path =>
    match tree.children[index]? with
    | some child => child.get? path
    | none => none

def replaceAt (tree : Tree) (path : List Nat) (replacement : Tree) : Tree :=
  match path with
  | [] => replacement
  | index :: below =>
    match tree.children[index]? with
    | some child => tree.replaceChild index (child.replaceAt below replacement)
    | none => tree

/-- Distance in bytes from the start of the tree to the start of the subtree at a path. -/
def offsetAt (tree : Tree) : List Nat → Nat
  | [] => 0
  | index :: path =>
    widths (tree.children.take index) +
      match tree.children[index]? with
      | some child => child.offsetAt path
      | none => 0

end Tree

end TreeLint
