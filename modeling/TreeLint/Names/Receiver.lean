import TreeLint.Names.Scope

/-! Which class a member access reaches. Only a plain variable that is created with `new` where it
is declared tells its class. -/

namespace TreeLint

/-- The variable a member is accessed on, and the class it was created from. -/
structure Receiver where
  name : String
  declaration : Node
  definition : Node

namespace Node

def receiverName? (access : Node) : Option Node :=
  (access.child? 0).filter fun receiver => receiver.kind = .identifier

/-- The accessed member: the last name, unless that is the receiver itself. -/
def memberName? (access : Node) : Option Node :=
  (access.childrenOfKind .identifier).getLast?.filter fun name => 0 < name.index

/-- The variable, its declaration, the type it is constructed with, and that type's class. -/
def receiver? (access : Node) : Option Receiver := do
  let receiver ← access.receiverName?
  let declaration ← access.findDeclaration? receiver.spelling
  let typeName ← declaration.constructedType?
  let definition ← access.findClass? typeName
  some ⟨receiver.spelling, declaration, definition⟩

end Node

end TreeLint
