import TreeLint.Text.Alphabetic
import TreeLint.Tree.Kind

/-! The grammar's symbols and the kinds of syntax they stand for. -/

namespace TreeLint.Grammar

def constructs : List (String × Kind) :=
  [("compilation_unit", .compilationUnit),
   ("namespace_declaration", .namespaceDeclaration),
   ("file_scoped_namespace_declaration", .namespaceDeclaration),
   ("class_declaration", .classDeclaration),
   ("declaration_list", .declarationList),
   ("field_declaration", .fieldDeclaration),
   ("method_declaration", .methodDeclaration),
   ("modifier", .modifier),
   ("parameter_list", .parameterList),
   ("parameter", .parameter),
   ("base_list", .baseList),
   ("block", .block),
   ("local_declaration_statement", .localDeclarationStatement),
   ("variable_declaration", .variableDeclaration),
   ("variable_declarator", .variableDeclarator),
   ("expression_statement", .expressionStatement),
   ("if_statement", .ifStatement),
   ("return_statement", .returnStatement),
   ("member_access_expression", .memberAccess),
   ("invocation_expression", .invocation),
   ("object_creation_expression", .objectCreation),
   ("argument_list", .argumentList),
   ("argument", .argument),
   ("qualified_name", .qualifiedName),
   ("generic_name", .genericName),
   ("nullable_type", .nullableType),
   ("prefix_unary_expression", .prefixUnary),
   ("boolean_literal", .literal),
   ("string_literal", .literal),
   ("verbatim_string_literal", .literal),
   ("raw_string_literal", .literal),
   ("character_literal", .literal),
   ("interpolated_string_expression", .interpolatedString),
   ("ERROR", .error)]

def constructKind (symbol : String) : Kind :=
  (constructs.lookup symbol).getD .unknown

/-- Symbols of the leaves that keep a token kind of their own. -/
def leaves : List (String × Kind) :=
  [("identifier", .identifier),
   ("predefined_type", .predefinedType),
   ("implicit_type", .implicitType),
   ("comment", .comment)]

/-- Keyword or punctuation, judged by the first character. -/
def spellingKind (text : String) : Kind :=
  match text.toList with
  | first :: _ => if Text.isAlphabetic first || first = '_' then .keyword else .punctuation
  | [] => .punctuation

/-- The kind of a leaf. A named leaf without a kind of its own is a piece of a literal. -/
def leafKind (symbol : String) (named : Bool) (text : String) : Kind :=
  match leaves.lookup symbol with
  | some kind => kind
  | none => if named then .literalToken else spellingKind text

def isBaseList (symbol : String) : Bool :=
  constructKind symbol = .baseList

/-- A clause that stands for nothing but its children. -/
def isTransparent (symbol : String) : Bool :=
  symbol = "equals_value_clause"

end TreeLint.Grammar
