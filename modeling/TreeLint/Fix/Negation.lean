import TreeLint.Fix.Error
import TreeLint.Rule.Check
import TreeLint.Text.Alphabetic
import TreeLint.Tree.Build

/-! Taking the negation out of a boolean name. The declaration gets the affirmed name, and each use
of the old name becomes the negated new one. Uses are found by their spelling, in the whole file;
since a negated name cannot be declared, the fix is refused when the old name is declared again. -/

namespace TreeLint

namespace Node

def beforeDefault (parameter : Node) : List Node :=
  parameter.children.takeWhile fun child => !child.isEquals

/-- The name that a declarator or a parameter introduces. A parameter's type may be a plain name
too, so its own name is the last one. -/
def introducedName? (node : Node) : Option Node :=
  match node.kind with
  | .variableDeclarator => node.declaratorName?
  | .parameter => (node.beforeDefault.filter fun child => child.kind = .identifier).getLast?
  | _ => none

def isIntroduced (token : Node) : Bool :=
  match token.parent?.bind introducedName? with
  | some name => name.path = token.path
  | none => false

end Node

namespace Fix

def refuse (mismatch : Mismatch) : FixError :=
  .malformed .negatedName mismatch

def startsName (text : String) : Bool :=
  match text.toList with
  | first :: _ => Text.isAlphabetic first || first = '_'
  | [] => false

/-- What the fix needs to know of a declaration. -/
structure Renaming where
  declaration : Node
  declarator : Node
  oldName : String
  value : Node

namespace Renaming

def newName (plan : Renaming) : String :=
  Name.affirmed plan.oldName

/-- The children of the declaration behind its first declarator. They stay as they are. -/
def rest (plan : Renaming) : List Tree :=
  plan.declaration.tree.children.drop (plan.declarator.index + 1)

def replacement (plan : Renaming) : Tree :=
  Build.declaration "bool" (Build.declarator plan.newName (some plan.value.tree))
    plan.rest

def read (tree : Tree) (span : Span) : Except FixError Renaming := do
  let declaration ←
    match tree.covering .variableDeclaration span with
    | .ok declaration => .ok declaration
    | .error cause => .error (refuse (.anchor cause))
  if !declaration.isBool then .error (refuse .notBool)
  let some declarator := declaration.firstDeclarator? | .error (refuse .noDeclarator)
  let some name := declarator.declaratorName? | .error (refuse .noName)
  let oldName := name.spelling
  if !Name.isNegated oldName then .error (refuse (.notNegated oldName))
  if !startsName (Name.affirmed oldName) then .error (refuse (.invalidName oldName))
  let some value := declarator.initializer?.filter Node.isLiteral
    | .error (refuse (.notLiteral oldName))
  return ⟨declaration, declarator, oldName, value⟩

end Renaming

def usesOf (tree : Tree) (name : String) : List Node :=
  (tree.asNode.descendantsOfKind .identifier).filter fun token => token.spelling = name

def carriedOut (result : Except EditError Tree) : Except FixError Tree :=
  match result with
  | .ok tree => .ok tree
  | .error cause => .error (.rejected cause)

/-- Renames the boolean declared at a span and negates the uses of its old name. -/
def negatedName (tree : Tree) (span : Span) : Except FixError Tree := do
  let plan ← Renaming.read tree span
  let renamed ←
    carriedOut (Edit.applyAll tree [.replacing plan.declaration plan.replacement])
  let uses := usesOf renamed plan.oldName
  if uses.any Node.isIntroduced then .error (refuse (.declaredAgain plan.oldName))
  carriedOut
    (Edit.applyAll renamed
      (uses.map fun token => .replacing token (Build.negation plan.newName)))

end Fix

end TreeLint
