import TreeLint.Fix.Error
import TreeLint.Rule.Check
import TreeLint.Tree.Build

/-! Giving a class a string conversion of its own: a method that lists the fields of the class,
added at the end of its body and laid out like what stands there already. -/

namespace TreeLint.Fix

def reject (mismatch : Mismatch) : FixError :=
  .malformed .missingToString mismatch

/-- What is written in front of a field's value: the name of the field and, from the second field
on, a line break in escaped form before it. -/
def labels (fields : List String) : List (String × String) :=
  fields.mapIdx fun index field =>
    ((if index = 0 then "" else "\\n") ++ field ++ ": ", field)

/-- Where the new method goes and how it is laid out. -/
structure Layout where
  /-- Trivia in front of the method. -/
  trivia : String
  /-- Indentation of a method over several lines; none for a method on one line. -/
  indent : Option String

def indentation? (trivia : String) : Option String :=
  if trivia.toList.contains '\n' then
    some (String.ofList (trivia.toList.reverse.takeWhile (· ≠ '\n')).reverse)
  else none

namespace Layout

def oneLine : Layout := ⟨" ", none⟩

/-- Follows the last member of the class; in an empty body, one step deeper than its brace. -/
def choose (members : List Node) (close : Node) : Layout :=
  match members.getLast? with
  | some last =>
    match indentation? last.tree.leading with
    | some indent => ⟨"\n\n" ++ indent, some indent⟩
    | none => oneLine
  | none =>
    match indentation? close.tree.leading with
    | some braceIndent =>
      let indent := braceIndent ++ Build.indentUnit
      ⟨"\n" ++ indent, some indent⟩
    | none => oneLine

end Layout

def listingMethod (fields : List String) (layout : Layout) : Tree :=
  let body :=
    Build.block [Build.returnStatement (Build.interpolatedString (labels fields))] layout.indent
  (Build.method ["public", "override"] "string" toStringName body).withLeading layout.trivia

def closingBrace? (body : Node) : Option Node :=
  (body.children.filter fun child => child.kind = .punctuation && child.spelling = "\x7d").getLast?

/-- Adds the method to the class that the member access at a span reaches. -/
def missingToString (tree : Tree) (span : Span) : Except FixError Tree := do
  let access ←
    match tree.covering .memberAccess span with
    | .ok access => .ok access
    | .error cause => .error (reject (.anchor cause))
  let some receiver := access.receiver? | .error (reject .unknownReceiver)
  let definition := receiver.definition
  let some body := definition.classBody? | .error (reject .noBody)
  let some close := closingBrace? body | .error (reject .openBody)
  let layout := Layout.choose definition.classMembers close
  let method := listingMethod definition.fieldNames layout
  let extended := definition.tree.replaceChild body.index (body.tree.insertChild close.index method)
  match Edit.applyAll tree [.replacing definition extended] with
  | .ok fixed => .ok fixed
  | .error cause => .error (.rejected cause)

end TreeLint.Fix
