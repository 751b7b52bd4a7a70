import TreeLint.Tree.Node

/-! What the declaration of a variable says, read off its syntax. Nothing is guessed: where a part
is missing or has another shape, there is no answer. -/

namespace TreeLint

namespace Tree

def isNamePart (tree : Tree) : Bool :=
  tree.kind ≠ .punctuation && tree.kind ≠ .comment

mutual

/-- The simple name of a type: the last part of a dotted name, a generic type without its
arguments. Arrays, tuples and other shapes have none. -/
def typeName? : Tree → Option String
  | token kind _ text =>
    match kind with
    | .identifier | .predefinedType => some text
    | _ => none
  | node kind children =>
    match kind with
    | .identifier | .predefinedType => some ""
    | .genericName => (children.find? fun child => child.kind = .identifier).map spelling
    | .qualifiedName => lastTypeName? children
    | _ => none

/-- The simple name of the last part of a dotted name. -/
def lastTypeName? : List Tree → Option String
  | [] => none
  | tree :: rest =>
    if rest.any isNamePart then lastTypeName? rest
    else if tree.isNamePart then tree.typeName?
    else none

end

end Tree

namespace Node

def isEquals (node : Node) : Bool :=
  node.kind = .punctuation && node.spelling = "="

def typeName? (node : Node) : Option String :=
  node.tree.typeName?

def isLiteral (node : Node) : Bool :=
  node.kind = .literal || node.kind = .literalToken

def declaratorName? (declarator : Node) : Option Node :=
  declarator.identifier?

/-- The initial value of a declarator: what follows the first `=`. -/
def initializer? (declarator : Node) : Option Node :=
  (declarator.children.dropWhile fun child => !child.isEquals)[1]?

def firstDeclarator? (declaration : Node) : Option Node :=
  declaration.childOfKind? .variableDeclarator

/-- The name that the first declarator of a declaration introduces. -/
def declaredName? (declaration : Node) : Option String :=
  (declaration.firstDeclarator?.bind declaratorName?).map spelling

/-- The type of a declaration: its first child, if that can be a type. -/
def declaredType? (declaration : Node) : Option Node :=
  (declaration.child? 0).filter fun type => type.kind.isType

/-- The type that the initial value of the first declarator constructs. -/
def constructedType? (declaration : Node) : Option String := do
  let declarator ← declaration.firstDeclarator?
  let value ← declarator.initializer?
  if value.kind = .objectCreation then
    let type ← value.children.find? fun child => child.kind.isType
    type.typeName?
  else none

end Node

end TreeLint
