import Recast.Classify.Group
import Recast.Refactoring.Basic
import Recast.Signature

/-!
# Renames

An update of a label is a rename when the updated node names a declaration, which its parent and
grandparent show. Attributes and local variables count only when at least two updates share a key.
-/

namespace Recast.Diff

/-- The anchors of an updated node and of its counterpart, in a pass over the edits of one file. -/
structure Candidate (d : Diff) where
  path : String
  src : Anchor d.before
  dst : Anchor d.after

namespace Candidate

variable {d : Diff}

/-- A refactoring between two nodes of a candidate. -/
def report (c : Candidate d) (kind : RefactoringKind) (details : String) (element : ElementType)
    (oldRole oldElement newRole newElement : String) : Except Fault Refactoring := do
  let before ← CodeRange.ofNode c.path d.before c.src.node element oldRole oldElement
  let after ← CodeRange.ofNode c.path d.after c.dst.node element newRole newElement
  return .make kind details before after

/-- The name of a method declaration. -/
def methodRename? (c : Candidate d) : Option (Except Fault Refactoring) := do
  let old := d.before.methodSignature c.src.parent
  let new := d.after.methodSignature c.dst.parent
  let owner ← d.after.classSignature? (← c.dst.grandparent)
  return c.report .renameMethod s!"{old} renamed to {new} in class {owner}" .methodDeclaration
    "original method name" (d.before.label c.src.node)
    "renamed method name" (d.after.label c.dst.node)

/-- The name of a parameter of a method. -/
def parameterRename? (c : Candidate d) : Option (Except Fault Refactoring) := do
  let method ← c.dst.grandparent
  let old ← d.before.variableSignature? c.src.parent
  let new ← d.after.variableSignature? c.dst.parent
  let signature := d.after.methodSignature method
  let owner ← d.after.classSignature? (← d.after.parent method)
  return c.report .renameParameter s!"{old} to {new} in method {signature} in class {owner}"
    .singleVariableDeclaration
    "original variable declaration" old "renamed variable declaration" new

/-- The name of an attribute. -/
def attributeRename? (c : Candidate d) : Option (Except Fault Refactoring) := do
  let old ← d.before.variableSignature? c.src.parent
  let new ← d.after.variableSignature? c.dst.parent
  let owner ← d.after.classSignature? (← d.after.parent (← c.dst.grandparent))
  return c.report .renameAttribute s!"{old} to {new} in class {owner}" .fieldDeclaration
    "original attribute declaration" old "renamed attribute declaration" new

/-- The name of a local variable. -/
def variableRename? (c : Candidate d) (element : ElementType) :
    Option (Except Fault Refactoring) := do
  let old ← d.before.variableSignature? c.src.parent
  let new ← d.after.variableSignature? c.dst.parent
  let (signature, owner) ← d.after.memberContext? c.dst.parent
  return c.report .renameVariable s!"{old} to {new} in method {signature} in class {owner}" element
    "original variable declaration" old "renamed variable declaration" new

/-- The rename that a candidate is, in a group of `groupSize` updates with its key. -/
def rename? (c : Candidate d) (groupSize : Nat) : Option (Except Fault Refactoring) :=
  match d.before.kind c.src.parent, c.src.grandparentKind? with
  | .methodDeclaration, _ => c.methodRename?
  | .singleVariableDeclaration, some .methodDeclaration =>
    if c.dst.grandparentKind? == some .methodDeclaration then c.parameterRename? else none
  | .variableDeclarationFragment, some .fieldDeclaration =>
    if 1 < groupSize then c.attributeRename? else none
  | .variableDeclarationFragment, some statement =>
    if statement.isVariableDeclaration && 1 < groupSize then
      c.variableRename? (if statement == .variableDeclarationStatement
        then .variableDeclarationStatement else .variableDeclarationExpression)
    else none
  | .singleVariableDeclaration, some .enhancedForStatement =>
    if 1 < groupSize then c.variableRename? .enhancedForStatementParameterName else none
  | _, _ => none

end Candidate

/-- The rename that an update of this node is: both the node and its counterpart need a parent. -/
def classifyRename (d : Diff) (path : String) (i : d.before.Id) (groupSize : Nat) :
    Except Fault (Option Refactoring) :=
  match Anchor.of? d.before i, d.mapping.dst? i with
  | some src, some j => do
    let j ← d.after.resolve j
    attempt ((Anchor.of? d.after j).bind fun dst => Candidate.rename? ⟨path, src, dst⟩ groupSize)
  | _, _ => .ok none

/-- The renames of a difference, group by group. -/
def renames (d : Diff) (path : String) : Except Fault (List Refactoring) := do
  let candidates ← d.renameCandidates
  gather (fun (i, size) => d.classifyRename path i size) (Group.sized (groupByKey candidates))

end Recast.Diff
