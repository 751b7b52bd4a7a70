import TreeLint.Names.Class
import TreeLint.Text.Search
import TreeLint.Tree.Walk

/-! Name lookup without a type checker. A name is searched for from the inside out: in the parent
of the place where it is used, then in the parent's parent, and so on, each time among all
descendants in source order. The first declaration of that name wins. -/

namespace TreeLint

namespace Node

/-- The first node with a property among the descendants of the nearest ancestor that has one. -/
def searchOutwards (start : Node) (wanted : Node → Bool) : Option Node :=
  start.ancestors.findSome? fun scope => scope.descendants.find? wanted

def findDeclaration? (start : Node) (name : String) : Option Node :=
  start.searchOutwards fun node =>
    node.kind = .variableDeclaration && node.declaredName? = some name

def findClass? (start : Node) (name : String) : Option Node :=
  start.searchOutwards fun node =>
    node.kind = .classDeclaration && node.className? = some name

end Node

inductive Base where
  /-- A class of the same file. -/
  | found (definition : Node)
  /-- Nothing, or the root of all classes. -/
  | root
  /-- A class that this file does not declare. -/
  | missing (name : String)

namespace Node

/-- The class that a class inherits from, as seen from the class. -/
def base (definition : Node) : Base :=
  match definition.baseName? with
  | none => .root
  | some name =>
    if Text.sameIgnoringCase name "object" then .root
    else
      match definition.findClass? name with
      | some base => .found base
      | none => .missing name

/-- At most `count` classes, from `definition` on, each followed by its base, up to a class that has
none in this file or whose path is in `visited`. -/
def lineageFrom : Nat → List (List Nat) → Node → List Node
  | 0, _, _ => []
  | count + 1, visited, definition =>
    if definition.path ∈ visited then []
    else
      definition ::
        match definition.base with
        | .found base => lineageFrom count (definition.path :: visited) base
        | _ => []

/-- A class, its base, the base of that, and so on. Inheritance may run in a circle, so the list
ends before the first class that it would repeat; no tree has more classes than nodes. -/
def lineage (definition : Node) : List Node :=
  lineageFrom definition.root.size [] definition

/-- Whether the class has or inherits a method of this name. -/
def hasMethod (definition : Node) (name : String) : Bool :=
  definition.lineage.any fun ancestor => ancestor.declaresMethod name

end Node

end TreeLint
