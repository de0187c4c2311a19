/-!
# Node kinds

The kinds of node that a syntax tree of a Java source file can have. A kind is written by the name
its tree generator gives it; the few kinds that exist only inside the generator have upper-case
names. A name that is not in the list means `other`, a kind nothing is ever classified by.

* `Kind.name` and `Kind.ofName` write and read a kind, and `ofName_name` says that reading undoes
  writing;
* `isType`, `isVariableDeclaration` and `isIncidentalText` are the classes that classification
  looks at.
-/

namespace Recast

/-! ## 1. The kinds -/

/-- The kind of a syntax tree node. -/
inductive Kind where
  -- compilation units
  | compilationUnit | packageDeclaration | importDeclaration
  -- type declarations
  | typeDeclaration | enumDeclaration | recordDeclaration | annotationTypeDeclaration
  | annotationTypeMemberDeclaration | anonymousClassDeclaration | enumConstantDeclaration
  | typeDeclarationStatement | typeParameter | typeDeclarationKind
  -- members and variables
  | fieldDeclaration | methodDeclaration | initializer | singleVariableDeclaration
  | variableDeclarationFragment | variableDeclarationStatement | variableDeclarationExpression
  -- statements
  | block | assertStatement | breakStatement | continueStatement | doStatement | emptyStatement
  | enhancedForStatement | expressionStatement | forStatement | ifStatement | labeledStatement
  | returnStatement | switchCase | switchStatement | synchronizedStatement | throwStatement
  | tryStatement | catchClause | whileStatement | yieldStatement
  -- expressions
  | arrayAccess | arrayCreation | arrayInitializer | assignment | castExpression
  | classInstanceCreation | conditionalExpression | constructorInvocation
  | expressionMethodReference | fieldAccess | infixExpression | instanceofExpression
  | lambdaExpression | methodInvocation | parenthesizedExpression | postfixExpression
  | prefixExpression | superConstructorInvocation | superFieldAccess | superMethodInvocation
  | switchExpression | thisExpression | typeLiteral | assignmentOperator | infixExpressionOperator
  | prefixExpressionOperator | postfixExpressionOperator | methodInvocationReceiver
  | methodInvocationArguments
  -- names
  | simpleName | qualifiedName
  -- types
  | simpleType | primitiveType | qualifiedType | wildcardType | arrayType | parameterizedType
  | nameQualifiedType | unionType | intersectionType | varargsType
  -- modifiers and annotations
  | modifier | markerAnnot | normalAnnot | singleMemberAnnot | memberValuePair
  -- literals
  | booleanLiteral | characterLiteral | nullLiteral | numberLiteral | stringLiteral | textBlock
  -- comments and documentation
  | javadoc | tagElement | textElement | memberRef | methodRef | methodRefParameter | lineComment
  | blockComment
  -- anything else
  | other
deriving DecidableEq, Repr, Inhabited

namespace Kind

/-- Every kind, in the order of declaration. -/
def all : List Kind :=
  [.compilationUnit, .packageDeclaration, .importDeclaration, .typeDeclaration, .enumDeclaration,
   .recordDeclaration, .annotationTypeDeclaration, .annotationTypeMemberDeclaration,
   .anonymousClassDeclaration, .enumConstantDeclaration, .typeDeclarationStatement, .typeParameter,
   .typeDeclarationKind, .fieldDeclaration, .methodDeclaration, .initializer,
   .singleVariableDeclaration, .variableDeclarationFragment, .variableDeclarationStatement,
   .variableDeclarationExpression, .block, .assertStatement, .breakStatement, .continueStatement,
   .doStatement, .emptyStatement, .enhancedForStatement, .expressionStatement, .forStatement,
   .ifStatement, .labeledStatement, .returnStatement, .switchCase, .switchStatement,
   .synchronizedStatement, .throwStatement, .tryStatement, .catchClause, .whileStatement,
   .yieldStatement, .arrayAccess, .arrayCreation, .arrayInitializer, .assignment, .castExpression,
   .classInstanceCreation, .conditionalExpression, .constructorInvocation,
   .expressionMethodReference, .fieldAccess, .infixExpression, .instanceofExpression,
   .lambdaExpression, .methodInvocation, .parenthesizedExpression, .postfixExpression,
   .prefixExpression, .superConstructorInvocation, .superFieldAccess, .superMethodInvocation,
   .switchExpression, .thisExpression, .typeLiteral, .assignmentOperator, .infixExpressionOperator,
   .prefixExpressionOperator, .postfixExpressionOperator, .methodInvocationReceiver,
   .methodInvocationArguments, .simpleName, .qualifiedName, .simpleType, .primitiveType,
   .qualifiedType, .wildcardType, .arrayType, .parameterizedType, .nameQualifiedType, .unionType,
   .intersectionType, .varargsType, .modifier, .markerAnnot, .normalAnnot, .singleMemberAnnot,
   .memberValuePair, .booleanLiteral, .characterLiteral, .nullLiteral, .numberLiteral,
   .stringLiteral, .textBlock, .javadoc, .tagElement, .textElement, .memberRef, .methodRef,
   .methodRefParameter, .lineComment, .blockComment, .other]

/-! ## 2. Names -/

/-- The name a kind is written by. -/
def name : Kind → String
  | .compilationUnit => "CompilationUnit"
  | .packageDeclaration => "PackageDeclaration"
  | .importDeclaration => "ImportDeclaration"
  | .typeDeclaration => "TypeDeclaration"
  | .enumDeclaration => "EnumDeclaration"
  | .recordDeclaration => "RecordDeclaration"
  | .annotationTypeDeclaration => "AnnotationTypeDeclaration"
  | .annotationTypeMemberDeclaration => "AnnotationTypeMemberDeclaration"
  | .anonymousClassDeclaration => "AnonymousClassDeclaration"
  | .enumConstantDeclaration => "EnumConstantDeclaration"
  | .typeDeclarationStatement => "TypeDeclarationStatement"
  | .typeParameter => "TypeParameter"
  | .typeDeclarationKind => "TYPE_DECLARATION_KIND"
  | .fieldDeclaration => "FieldDeclaration"
  | .methodDeclaration => "MethodDeclaration"
  | .initializer => "Initializer"
  | .singleVariableDeclaration => "SingleVariableDeclaration"
  | .variableDeclarationFragment => "VariableDeclarationFragment"
  | .variableDeclarationStatement => "VariableDeclarationStatement"
  | .variableDeclarationExpression => "VariableDeclarationExpression"
  | .block => "Block"
  | .assertStatement => "AssertStatement"
  | .breakStatement => "BreakStatement"
  | .continueStatement => "ContinueStatement"
  | .doStatement => "DoStatement"
  | .emptyStatement => "EmptyStatement"
  | .enhancedForStatement => "EnhancedForStatement"
  | .expressionStatement => "ExpressionStatement"
  | .forStatement => "ForStatement"
  | .ifStatement => "IfStatement"
  | .labeledStatement => "LabeledStatement"
  | .returnStatement => "ReturnStatement"
  | .switchCase => "SwitchCase"
  | .switchStatement => "SwitchStatement"
  | .synchronizedStatement => "SynchronizedStatement"
  | .throwStatement => "ThrowStatement"
  | .tryStatement => "TryStatement"
  | .catchClause => "CatchClause"
  | .whileStatement => "WhileStatement"
  | .yieldStatement => "YieldStatement"
  | .arrayAccess => "ArrayAccess"
  | .arrayCreation => "ArrayCreation"
  | .arrayInitializer => "ArrayInitializer"
  | .assignment => "Assignment"
  | .castExpression => "CastExpression"
  | .classInstanceCreation => "ClassInstanceCreation"
  | .conditionalExpression => "ConditionalExpression"
  | .constructorInvocation => "ConstructorInvocation"
  | .expressionMethodReference => "ExpressionMethodReference"
  | .fieldAccess => "FieldAccess"
  | .infixExpression => "InfixExpression"
  | .instanceofExpression => "InstanceofExpression"
  | .lambdaExpression => "LambdaExpression"
  | .methodInvocation => "MethodInvocation"
  | .parenthesizedExpression => "ParenthesizedExpression"
  | .postfixExpression => "PostfixExpression"
  | .prefixExpression => "PrefixExpression"
  | .superConstructorInvocation => "SuperConstructorInvocation"
  | .superFieldAccess => "SuperFieldAccess"
  | .superMethodInvocation => "SuperMethodInvocation"
  | .switchExpression => "SwitchExpression"
  | .thisExpression => "ThisExpression"
  | .typeLiteral => "TypeLiteral"
  | .assignmentOperator => "ASSIGNMENT_OPERATOR"
  | .infixExpressionOperator => "INFIX_EXPRESSION_OPERATOR"
  | .prefixExpressionOperator => "PREFIX_EXPRESSION_OPERATOR"
  | .postfixExpressionOperator => "POSTFIX_EXPRESSION_OPERATOR"
  | .methodInvocationReceiver => "METHOD_INVOCATION_RECEIVER"
  | .methodInvocationArguments => "METHOD_INVOCATION_ARGUMENTS"
  | .simpleName => "SimpleName"
  | .qualifiedName => "QualifiedName"
  | .simpleType => "SimpleType"
  | .primitiveType => "PrimitiveType"
  | .qualifiedType => "QualifiedType"
  | .wildcardType => "WildcardType"
  | .arrayType => "ArrayType"
  | .parameterizedType => "ParameterizedType"
  | .nameQualifiedType => "NameQualifiedType"
  | .unionType => "UnionType"
  | .intersectionType => "IntersectionType"
  | .varargsType => "VARARGS_TYPE"
  | .modifier => "Modifier"
  | .markerAnnot => "MarkerAnnotation"
  | .normalAnnot => "NormalAnnotation"
  | .singleMemberAnnot => "SingleMemberAnnotation"
  | .memberValuePair => "MemberValuePair"
  | .booleanLiteral => "BooleanLiteral"
  | .characterLiteral => "CharacterLiteral"
  | .nullLiteral => "NullLiteral"
  | .numberLiteral => "NumberLiteral"
  | .stringLiteral => "StringLiteral"
  | .textBlock => "TextBlock"
  | .javadoc => "Javadoc"
  | .tagElement => "TagElement"
  | .textElement => "TextElement"
  | .memberRef => "MemberRef"
  | .methodRef => "MethodRef"
  | .methodRefParameter => "MethodRefParameter"
  | .lineComment => "LineComment"
  | .blockComment => "BlockComment"
  | .other => "Other"

/-- The kind a name stands for; `other` for a name that is not in the list. -/
def ofName (s : String) : Kind := (all.find? fun k => k.name == s).getD .other

theorem mem_all (k : Kind) : k ∈ all := by cases k <;> decide

/-- Reading a kind's name gives the kind back. -/
theorem ofName_name (k : Kind) : ofName k.name = k := by
  have h : ∀ k ∈ all, ofName k.name = k := by decide +kernel
  exact h k (mem_all k)

/-! ## 3. Classes -/

/-- Whether a kind is a reference to a type. Union and intersection types occur only in catch
    clauses and casts, never as the type of a declaration, and do not count. -/
def isType : Kind → Bool
  | .simpleType | .primitiveType | .qualifiedType | .wildcardType | .arrayType
  | .parameterizedType | .varargsType | .nameQualifiedType => true
  | _ => false

/-- Whether a kind is a statement or an expression that declares local variables. -/
def isVariableDeclaration : Kind → Bool
  | .variableDeclarationStatement | .variableDeclarationExpression => true
  | _ => false

theorem isVariableDeclaration_iff {k : Kind} : k.isVariableDeclaration = true ↔
    k = .variableDeclarationStatement ∨ k = .variableDeclarationExpression := by
  cases k <;> decide

/-- Literals and documentation: a changed label is a changed text there, never a new name. -/
def isIncidentalText : Kind → Bool
  | .stringLiteral | .numberLiteral | .textElement => true
  | _ => false

/-- Whether a node of this kind shows as `...` when it has no label of its own. -/
def isAbbreviated : Kind → Bool
  | .typeDeclaration | .compilationUnit => true
  | _ => false

end Kind

end Recast
