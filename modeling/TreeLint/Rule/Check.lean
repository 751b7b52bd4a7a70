import TreeLint.Names.Receiver
import TreeLint.Rule.Basic

/-! When a rule reports. A rule reads the node it is asked about and the tree around it, and reports
at most one defect. -/

namespace TreeLint

/-- A report of a rule on a node. It holds for the tree of its anchor only. -/
structure Defect where
  rule : Rule
  anchor : Node
  /-- What the message speaks of. -/
  arguments : List String

/-- The bytes of the anchor. A later tree is asked for a node with this span to find out whether the
report still holds there. -/
def Defect.span (defect : Defect) : Span :=
  defect.anchor.span

namespace Name

def negationLength : Nat := 3

def isNegated (name : String) : Bool :=
  Text.sameIgnoringCase (String.ofList (name.toList.take negationLength)) "not"

def affirmed (name : String) : String :=
  String.ofList (name.toList.drop negationLength)

end Name

def toStringName : String := "ToString"

namespace Node

/-- Whether a declaration has the type `bool`, spelled as the keyword. -/
def isBool (declaration : Node) : Bool :=
  match declaration.declaredType? with
  | some type => type.kind = .predefinedType && type.spelling = "bool"
  | none => false

end Node

namespace Rule

/-- A boolean declaration whose first name is negated. -/
def checkNegatedName (node : Node) : Option Defect :=
  if node.isBool then
    match node.declaredName? with
    | some name =>
      if Name.isNegated name then some ⟨negatedName, node, [name]⟩ else none
    | none => none
  else none

/-- An access to `ToString` of an object whose class neither has nor inherits that method. -/
def checkMissingToString (node : Node) : Option Defect :=
  match node.memberName? with
  | some member =>
    if member.spelling = toStringName then
      match node.receiver? with
      | some receiver =>
        if receiver.definition.hasMethod toStringName then none
        else some ⟨missingToString, node, [receiver.name]⟩
      | none => none
    else none
  | none => none

/-- What a rule reports on a node, whatever the node's kind. -/
def check : Rule → Node → Option Defect
  | negatedName => checkNegatedName
  | missingToString => checkMissingToString

end Rule

def defectsAt (rules : List Rule) (node : Node) : List Defect :=
  (rules.filter fun rule => rule.anchorKind = node.kind).filterMap fun rule => rule.check node

def detect (rules : List Rule) (tree : Tree) : List Defect :=
  tree.asNode.selfAndDescendants.flatMap (defectsAt rules)

end TreeLint
