import TreeLint.Tree.Kind

/-! The built-in rules and what is said about them. -/

namespace TreeLint

inductive Rule where
  /-- A boolean variable whose name says what it is not. -/
  | negatedName
  /-- A string conversion of an object whose class has none of its own. -/
  | missingToString
  deriving DecidableEq

namespace Rule

/-- All rules, in the order in which they report on one node. -/
def all : List Rule := [negatedName, missingToString]

def id : Rule → String
  | negatedName => "SL-N001"
  | missingToString => "SL-S001"

def ofId? (id : String) : Option Rule :=
  all.find? fun rule => rule.id == id

def name : Rule → String
  | negatedName => "NegatedBoolNameRule"
  | missingToString => "MissingToStringRule"

def category : Rule → String
  | negatedName => "Naming"
  | missingToString => "CodeStyle"

def severity (_ : Rule) : String := "WARNING"

/-- What is reported; the first argument of a defect stands for `0` between braces. -/
def template : Rule → String
  | negatedName => "Boolean variable '\x7b0\x7d' is named with a negative prefix"
  | missingToString => "'\x7b0\x7d' calls ToString() on a class that does not declare ToString()"

def anchorKind : Rule → Kind
  | negatedName => .variableDeclaration
  | missingToString => .memberAccess

def enabled (ignored : List String) : List Rule :=
  all.filter fun rule => !ignored.contains rule.id

end Rule

end TreeLint
