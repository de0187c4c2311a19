import Recast.Text.LineIndex
import Recast.Tree.Basic

/-!
# Refactorings

What is reported: a kind, a sentence that describes what changed, and the place of the changed
element in either version of the file. Two records with the same description are about the same
refactoring.
-/

namespace Recast

/-! ## 1. Kinds -/

/-- The kinds of refactoring, in the order in which they are compared. -/
inductive RefactoringKind where
  | renameMethod | renameParameter | renameAttribute | renameVariable
  | changeParameterType | changeAttributeType | changeVariableType | changeReturnType
deriving DecidableEq, Repr

namespace RefactoringKind

/-- Every kind, in order. -/
def all : List RefactoringKind :=
  [.renameMethod, .renameParameter, .renameAttribute, .renameVariable,
   .changeParameterType, .changeAttributeType, .changeVariableType, .changeReturnType]

/-- The name a kind is shown and written by. -/
def name : RefactoringKind → String
  | .renameMethod => "Rename Method"
  | .renameParameter => "Rename Parameter"
  | .renameAttribute => "Rename Attribute"
  | .renameVariable => "Rename Variable"
  | .changeParameterType => "Change Parameter Type"
  | .changeAttributeType => "Change Attribute Type"
  | .changeVariableType => "Change Variable Type"
  | .changeReturnType => "Change Return Type"

/-- The kind with a given name. -/
def ofName? (s : String) : Option RefactoringKind := all.find? fun k => k.name == s

theorem ofName?_name (k : RefactoringKind) : ofName? k.name = some k := by cases k <;> decide

/-- Whether a kind is about a new name rather than a new type. -/
def isRename : RefactoringKind → Bool
  | .renameMethod | .renameParameter | .renameAttribute | .renameVariable => true
  | _ => false

/-- How two kinds compare. -/
def compare (a b : RefactoringKind) : Ordering := Ord.compare a.ctorIdx b.ctorIdx

end RefactoringKind

/-! ## 2. Places -/

/-- What a place points at. -/
inductive ElementType where
  | methodDeclaration | singleVariableDeclaration | fieldDeclaration
  | variableDeclarationStatement | variableDeclarationExpression
  | enhancedForStatementParameterName | type
deriving DecidableEq, Repr

namespace ElementType

/-- Every element type. -/
def all : List ElementType :=
  [.methodDeclaration, .singleVariableDeclaration, .fieldDeclaration,
   .variableDeclarationStatement, .variableDeclarationExpression,
   .enhancedForStatementParameterName, .type]

/-- The name an element type is written by. -/
def name : ElementType → String
  | .methodDeclaration => "METHOD_DECLARATION"
  | .singleVariableDeclaration => "SINGLE_VARIABLE_DECLARATION"
  | .fieldDeclaration => "FIELD_DECLARATION"
  | .variableDeclarationStatement => "VARIABLE_DECLARATION_STATEMENT"
  | .variableDeclarationExpression => "VARIABLE_DECLARATION_EXPRESSION"
  | .enhancedForStatementParameterName => "ENHANCED_FOR_STATEMENT_PARAMETER_NAME"
  | .type => "TYPE"

/-- The element type with a given name. -/
def ofName? (s : String) : Option ElementType := all.find? fun e => e.name == s

theorem ofName?_name (e : ElementType) : ofName? e.name = some e := by cases e <;> decide

end ElementType

/-- The place of an element in one version of a file: lines and columns count from one, columns in
    UTF-16 code units, and the end is the first position after the element. They are the numbers of
    `LineIndex.position`; the words of `LineIndex.lineCol` differ from them in a text of 2^32 - 1
    bytes only. -/
structure CodeRange where
  filePath : String
  startLine : Nat
  endLine : Nat
  startColumn : Nat
  endColumn : Nat
  elementType : ElementType
  /-- The part the element plays, such as `renamed method name`. -/
  description : String
  codeElement : String
deriving DecidableEq

/-- The place of a node. -/
def CodeRange.ofNode (path : String) (t : Tree) (i : t.Id) (elementType : ElementType)
    (description codeElement : String) : Except Fault CodeRange := do
  let (start, stop) ← (Text.LineIndex.ofText t.text).range t.text (t.span i)
  return {
    filePath := path, startLine := start.line, endLine := stop.line, startColumn := start.col,
    endColumn := stop.col, elementType, description, codeElement }

/-! ## 3. Records -/

/-- A refactoring. -/
structure Refactoring where
  description : String
  kind : RefactoringKind
  before : CodeRange
  after : CodeRange
deriving DecidableEq

namespace Refactoring

/-- The refactoring of a kind; the description starts with the name of the kind. -/
def make (kind : RefactoringKind) (details : String) (before after : CodeRange) : Refactoring :=
  { description := s!"{kind.name} {details}", kind, before, after }

/-- Whether two records are about the same refactoring. -/
def same (a b : Refactoring) : Bool := a.description == b.description

end Refactoring

end Recast
