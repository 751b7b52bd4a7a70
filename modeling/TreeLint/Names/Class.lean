import TreeLint.Names.Variable

/-! What the declaration of a class says, read off its syntax. -/

namespace TreeLint.Node

def className? (definition : Node) : Option String :=
  definition.identifier?.map spelling

def classBody? (definition : Node) : Option Node :=
  definition.childOfKind? .declarationList

def classMembers (definition : Node) : List Node :=
  match definition.classBody? with
  | some body => body.children.filter fun child => !child.isToken
  | none => []

/-- The name of a method: the identifier right before its parameters. -/
def methodName? (method : Node) : Option String := do
  let parameters ← method.childOfKind? .parameterList
  if parameters.index = 0 then none
  else
    let name ← method.child? (parameters.index - 1)
    if name.kind = .identifier then some name.spelling else none

def declaresMethod (definition : Node) (name : String) : Bool :=
  definition.classMembers.any fun member =>
    member.kind = .methodDeclaration && member.methodName? = some name

/-- The fields of a class in the order of their declaration; of several fields declared together
only the first. -/
def fieldNames (definition : Node) : List String :=
  (definition.classMembers.filter fun member => member.kind = .fieldDeclaration).filterMap
    fun field => (field.childOfKind? .variableDeclaration).bind declaredName?

/-- The name of the first entry of a class's base list. -/
def baseName? (definition : Node) : Option String := do
  let bases ← definition.childOfKind? .baseList
  let base ← bases.childOfKind? .baseTypeReference
  let type ← base.firstInnerChild?.or (base.child? 0)
  type.typeName?

end TreeLint.Node
