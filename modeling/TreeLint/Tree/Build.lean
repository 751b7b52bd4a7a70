import TreeLint.Tree.Basic

/-! New pieces of syntax. Each builder leaves the first token without trivia, so that whoever places
the piece decides what stands in front of it. -/

namespace TreeLint.Build

def indentUnit : String := "    "

def token (kind : Kind) (text : String) : Tree :=
  .token kind "" text

def spaced (kind : Kind) (text : String) : Tree :=
  .token kind " " text

def identifier (name : String) : Tree :=
  token .identifier name

def negation (name : String) : Tree :=
  .node .prefixUnary [token .punctuation "!", identifier name]

def declarator (name : String) : Option Tree → Tree
  | none => .node .variableDeclarator [identifier name]
  | some value =>
    .node .variableDeclarator [identifier name, spaced .punctuation "=", value.withLeading " "]

def declaration (keyword : String) (first : Tree) (rest : List Tree) : Tree :=
  .node .variableDeclaration (token .predefinedType keyword :: first.withLeading " " :: rest)

/-- One literal piece followed by a name to interpolate. -/
def interpolation (part : String × String) : List Tree :=
  let hole : Tree := .node .unknown
    [token .punctuation "\x7b", identifier part.2, token .punctuation "\x7d"]
  if part.1.isEmpty then [hole] else [token .literalToken part.1, hole]

/-- An interpolated string made of literal pieces, each followed by a name. -/
def interpolatedString (parts : List (String × String)) : Tree :=
  .node .interpolatedString
    (token .punctuation "$\"" :: parts.flatMap interpolation ++ [token .punctuation "\""])

def returnStatement (value : Tree) : Tree :=
  .node .returnStatement
    [token .keyword "return", value.withLeading " ", token .punctuation ";"]

/-- Statements between braces: on one line, or with the braces at an indentation and the statements
one step deeper. -/
def block (statements : List Tree) (indent : Option String) : Tree :=
  let (brace, inner) :=
    match indent with
    | some indent => ("\n" ++ indent, "\n" ++ indent ++ indentUnit)
    | none => (" ", " ")
  .node .block
    (.token .punctuation brace "\x7b" :: statements.map (·.withLeading inner) ++
      [.token .punctuation brace "\x7d"])

def modifiers : List String → List Tree
  | [] => []
  | first :: rest =>
    .node .modifier [token .keyword first] ::
      rest.map fun keyword => .node .modifier [spaced .keyword keyword]

def method (keywords : List String) (returnType name : String) (body : Tree) : Tree :=
  .node .methodDeclaration
    (modifiers keywords ++
      [.token .predefinedType (if keywords.isEmpty then "" else " ") returnType,
       spaced .identifier name,
       .node .parameterList [token .punctuation "(", token .punctuation ")"],
       body])

end TreeLint.Build
