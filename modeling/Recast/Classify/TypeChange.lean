import Recast.Classify.Rename

/-!
# Type changes

An edit of a reference to a type is a type change when the type belongs to a declaration. Edits
inside a type are lifted to the type as a whole before the declaration is looked at.
-/

namespace Recast.Diff

namespace Candidate

variable {d : Diff}

/-- The type of a parameter of a method. -/
def parameterTypeChange? (c : Candidate d) : Option (Except Fault Refactoring) := do
  let method ← c.dst.grandparent
  let old ← d.before.variableSignature? c.src.parent
  let new ← d.after.variableSignature? c.dst.parent
  let signature := d.after.methodSignature method
  let owner ← d.after.classSignature? (← d.after.parent method)
  return c.report .changeParameterType s!"{old} to {new} in method {signature} in class {owner}"
    .type "original variable declaration" old "changed-type variable declaration" new

/-- The type of an attribute. -/
def attributeTypeChange? (c : Candidate d) : Option (Except Fault Refactoring) := do
  let old ← d.before.firstFragmentSignature? c.src.parent
  let new ← d.after.firstFragmentSignature? c.dst.parent
  let owner ← d.after.classSignature? (← d.after.parent c.dst.parent)
  return c.report .changeAttributeType s!"{old} to {new} in class {owner}" .type
    "original attribute declaration" old "changed-type attribute declaration" new

/-- The type of a local variable with the given signatures. -/
def variableTypeChange? (c : Candidate d) (old new : Option String) :
    Option (Except Fault Refactoring) := do
  let old ← old
  let new ← new
  let (signature, owner) ← d.after.memberContext? c.dst.parent
  return c.report .changeVariableType s!"{old} to {new} in method {signature} in class {owner}"
    .type "original variable declaration" old "changed-type variable declaration" new

/-- The return type of a method: the signature of the method must end with the new type. -/
def returnTypeChange? (c : Candidate d) : Option (Except Fault Refactoring) := do
  let old := d.before.displayLabel c.src.node
  let new := d.after.displayLabel c.dst.node
  let method ← d.after.enclosingMethod? c.dst.node
  let signature := d.after.methodSignature method
  let owner ← d.after.classSignature? (← d.after.parent method)
  if new.toList.isSuffixOf signature.toList then
    return c.report .changeReturnType s!"{old} to {new} in method {signature} in class {owner}"
      .type "original return type" old "changed return type" new
  else none

/-- The type change that a candidate is. -/
def typeChange? (c : Candidate d) : Option (Except Fault Refactoring) :=
  match d.before.kind c.src.parent, c.src.grandparentKind? with
  | .singleVariableDeclaration, some .methodDeclaration =>
    if c.dst.grandparentKind? == some .methodDeclaration then c.parameterTypeChange? else none
  | .fieldDeclaration, _ => c.attributeTypeChange?
  | .singleVariableDeclaration, some .enhancedForStatement =>
    c.variableTypeChange? (d.before.variableSignature? c.src.parent)
      (d.after.variableSignature? c.dst.parent)
  | .methodDeclaration, _ => c.returnTypeChange?
  | statement, _ =>
    if statement.isVariableDeclaration then
      c.variableTypeChange? (d.before.firstFragmentSignature? c.src.parent)
        (d.after.firstFragmentSignature? c.dst.parent)
    else none

/-- Whether the two nodes of a candidate are isomorphic. -/
def isUnchanged (c : Candidate d) : Bool := d.before.isomorphic c.src.node d.after c.dst.node

end Candidate

/-- The type change that an edit of this node is. A move of something that stays the same is
    none. -/
def classifyTypeChange (d : Diff) (path : String) (c : TypeCandidate d.before) :
    Except Fault (Option Refactoring) :=
  match d.mapping.dst? c.node, Anchor.ofType? d.before c.node with
  | some j, some src => do
    let j ← d.after.resolve j
    attempt ((Anchor.ofType? d.after j).bind fun dst =>
      let candidate : Candidate d := ⟨path, src, dst⟩
      if c.moved && candidate.isUnchanged then none else candidate.typeChange?)
  | _, _ => .ok none

/-- The type changes of a difference, group by group. -/
def typeChanges (d : Diff) (path : String) : Except Fault (List Refactoring) := do
  let candidates ← d.typeCandidates
  gather (fun (c, _) => d.classifyTypeChange path c) (Group.sized (groupByKey candidates))

end Recast.Diff
