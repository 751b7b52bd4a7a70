import TreeLint.Grammar.Concrete
import TreeLint.Grammar.Symbols
import TreeLint.Text.Bytes
import TreeLint.Tree.Basic

/-! From concrete trees to lossless ones. Leaves are read from left to right with a cursor: each
takes the bytes from the cursor to its own start as leading trivia, so no byte is lost or read
twice, whatever the leaves' offsets are. The end of the file is a token of its own and takes what
is left. -/

namespace TreeLint

namespace Concrete

/-- Reads a leaf and moves the cursor behind it. A leaf whose symbol is a construct, such as a
literal or a modifier, becomes a node around its one token. -/
def lowerLeaf (source symbol : String) (named : Bool) (start stop cursor : Nat) : Tree × Nat :=
  let start := max start cursor
  let stop := max stop start
  let leading := (Text.slice? source cursor start).getD ""
  let text := (Text.slice? source start stop).getD ""
  let construct := Grammar.constructKind symbol
  if named && construct ≠ .unknown then
    (.node construct [.token (Grammar.spellingKind text) leading text], stop)
  else (.token (Grammar.leafKind symbol named text) leading text, stop)

/-- An entry of a base list is wrapped, so that the entries can be told from the separators. -/
def wrapBase (inBaseList : Bool) (child : Concrete) (lowered : List Tree) : List Tree :=
  if inBaseList && child.named && child.symbol ≠ "comment" then
    [.node .baseTypeReference lowered]
  else lowered

mutual

/-- The trees a concrete tree becomes, and the cursor behind them. -/
def lower (source : String) : Concrete → Nat → List Tree × Nat
  | .node symbol named start stop [], cursor =>
    let (leaf, cursor) := lowerLeaf source symbol named start stop cursor
    ([leaf], cursor)
  | .node symbol _ _ _ (first :: rest), cursor =>
    let (lowered, cursor) := lowerAll source (Grammar.isBaseList symbol) (first :: rest) cursor
    if Grammar.isTransparent symbol then (lowered, cursor)
    else ([.node (Grammar.constructKind symbol) lowered], cursor)

def lowerAll (source : String) (inBaseList : Bool) : List Concrete → Nat → List Tree × Nat
  | [], cursor => ([], cursor)
  | child :: rest, cursor =>
    let (lowered, cursor) := lower source child cursor
    let (others, cursor) := lowerAll source inBaseList rest cursor
    (wrapBase inBaseList child lowered ++ others, cursor)

end

/-- The file's tree: one compilation unit that ends with the end-of-file token. -/
def enclose (trees : List Tree) (endOfFile : Tree) : Tree :=
  match trees with
  | [unit] =>
    if unit.kind = .compilationUnit then unit.insertChild unit.children.length endOfFile
    else .node .compilationUnit [unit, endOfFile]
  | trees => .node .compilationUnit (trees ++ [endOfFile])

/-- The lossless tree of a source text. -/
def toTree (source : String) (concrete : Concrete) : Tree :=
  let (trees, cursor) := lower source concrete 0
  enclose trees (.token .endOfFile ((Text.sliceFrom? source cursor).getD "") "")

end Concrete

end TreeLint
