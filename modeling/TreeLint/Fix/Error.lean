import TreeLint.Fix.Edit
import TreeLint.Rule.Basic

/-! Why a fix is refused. -/

namespace TreeLint

/-- How the place a defect points at differs from what its fix needs. -/
inductive Mismatch where
  | anchor (cause : LookupError)
  | notBool
  | noDeclarator
  | noName
  | notNegated (name : String)
  | invalidName (name : String)
  | notLiteral (name : String)
  | declaredAgain (name : String)
  | unknownReceiver
  | noBody
  | openBody

def Mismatch.message : Mismatch → String
  | anchor cause => cause.message
  | notBool => "declaration is not typed `bool`"
  | noDeclarator => "no declarator"
  | noName => "declarator has no name"
  | notNegated name => s!"`{name}` has no negative prefix"
  | invalidName name => s!"`{name}` does not leave a valid name once the prefix is removed"
  | notLiteral name => s!"`{name}` is not initialized with a literal"
  | declaredAgain name => s!"`{name}` is declared more than once"
  | unknownReceiver => "receiver class cannot be resolved"
  | noBody => "class has no body"
  | openBody => "class body is not closed"

inductive FixError where
  /-- The tree does not have the shape that the rule reports. -/
  | malformed (rule : Rule) (mismatch : Mismatch)
  /-- There is no rule, and so no fix, with this id. -/
  | unknownRule (id : String)
  /-- The edits that make up the fix cannot be carried out. -/
  | rejected (cause : EditError)

def FixError.message : FixError → String
  | malformed rule mismatch => s!"{rule.id}: malformed input: {mismatch.message}"
  | unknownRule id => s!"no fix available for rule {id}"
  | rejected cause => cause.message

end TreeLint
