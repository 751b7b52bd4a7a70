/-! Kinds of the nodes of a C# syntax tree. The enumeration is closed: a construct that no rule
looks at is `unknown` and keeps only its structure and text. -/

namespace TreeLint

inductive Kind where
  | compilationUnit
  | namespaceDeclaration
  | classDeclaration
  | declarationList
  | fieldDeclaration
  | methodDeclaration
  | modifier
  | parameterList
  | parameter
  | baseList
  | baseTypeReference
  | block
  | localDeclarationStatement
  | variableDeclaration
  | variableDeclarator
  | expressionStatement
  | ifStatement
  | returnStatement
  | memberAccess
  | invocation
  | objectCreation
  | argumentList
  | argument
  | qualifiedName
  | genericName
  | nullableType
  | prefixUnary
  | literal
  | interpolatedString
  | error
  | unknown
  | identifier
  | predefinedType
  | implicitType
  | keyword
  | punctuation
  | literalToken
  | comment
  | endOfFile
  deriving DecidableEq

namespace Kind

/-- All kinds: declarations, statements, expressions and names, then the token kinds. -/
def all : List Kind :=
  [compilationUnit, namespaceDeclaration, classDeclaration, declarationList, fieldDeclaration,
   methodDeclaration, modifier, parameterList, parameter, baseList, baseTypeReference,
   block, localDeclarationStatement, variableDeclaration, variableDeclarator, expressionStatement,
   ifStatement, returnStatement,
   memberAccess, invocation, objectCreation, argumentList, argument, qualifiedName, genericName,
   nullableType, prefixUnary, literal, interpolatedString, error, unknown,
   identifier, predefinedType, implicitType, keyword, punctuation, literalToken, comment, endOfFile]

def name : Kind → String
  | compilationUnit => "CompilationUnit"
  | namespaceDeclaration => "NamespaceDeclaration"
  | classDeclaration => "ClassDeclaration"
  | declarationList => "DeclarationList"
  | fieldDeclaration => "FieldDeclaration"
  | methodDeclaration => "MethodDeclaration"
  | modifier => "Modifier"
  | parameterList => "ParameterList"
  | parameter => "Parameter"
  | baseList => "BaseList"
  | baseTypeReference => "BaseTypeReference"
  | block => "Block"
  | localDeclarationStatement => "LocalDeclarationStatement"
  | variableDeclaration => "VariableDeclaration"
  | variableDeclarator => "VariableDeclarator"
  | expressionStatement => "ExpressionStatement"
  | ifStatement => "IfStatement"
  | returnStatement => "ReturnStatement"
  | memberAccess => "MemberAccess"
  | invocation => "Invocation"
  | objectCreation => "ObjectCreation"
  | argumentList => "ArgumentList"
  | argument => "Argument"
  | qualifiedName => "QualifiedName"
  | genericName => "GenericName"
  | nullableType => "NullableType"
  | prefixUnary => "PrefixUnary"
  | literal => "Literal"
  | interpolatedString => "InterpolatedString"
  | error => "Error"
  | unknown => "Unknown"
  | identifier => "Identifier"
  | predefinedType => "PredefinedType"
  | implicitType => "ImplicitType"
  | keyword => "Keyword"
  | punctuation => "Punctuation"
  | literalToken => "LiteralToken"
  | comment => "Comment"
  | endOfFile => "EndOfFile"

def ofName? (spelling : String) : Option Kind :=
  all.find? fun kind => kind.name == spelling

/-- Kinds of the leaves, which carry source text. -/
def isToken : Kind → Bool
  | identifier | predefinedType | implicitType | keyword | punctuation | literalToken | comment
  | endOfFile => true
  | _ => false

/-- Kinds that can stand where a type is expected. -/
def isType : Kind → Bool
  | identifier | predefinedType | implicitType | qualifiedName | genericName | nullableType => true
  | _ => false

end Kind

end TreeLint
