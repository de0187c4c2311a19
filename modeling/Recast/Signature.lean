import Recast.Anchor

/-!
# Signatures

How declarations are named in descriptions, put together from what is below them:

* a variable: `name : type`;
* a class: its name after the names around it and the package, joined by dots;
* a method: access, name, parameters, return type.
-/

namespace Recast.Tree

/-! ## 1. Variables -/

/-- The signature made of a name and a type, if both are there. -/
def nameAndType? (t : Tree) (name type : Option t.Id) : Option String := do
  let name ← name
  let type ← type
  return s!"{t.label name} : {t.displayLabel type}"

/-- The signature of a variable. A fragment takes its type from the declaration it is part of. -/
def variableSignature? (t : Tree) (decl : t.Id) : Option String :=
  match t.kind decl with
  | .singleVariableDeclaration =>
    t.nameAndType? (t.childOfKind? decl .simpleName) (t.typeChild? decl)
  | .variableDeclarationFragment =>
    t.nameAndType? (t.childOfKind? decl .simpleName) ((t.parent decl).bind t.typeChild?)
  | _ => none

/-- The signature of the first variable that a declaration declares. -/
def firstFragmentSignature? (t : Tree) (decl : t.Id) : Option String :=
  (t.childOfKind? decl .variableDeclarationFragment).bind t.variableSignature?

/-! ## 2. Classes -/

/-- Whether `child` is found among `siblings` after a reference to a type and before a block. -/
def isBetween (t : Tree) (child : t.Id) (typeFound bodyFound : Bool) : List t.Id → Bool
  | [] => false
  | s :: ss =>
    if t.isType s then t.isBetween child true bodyFound ss
    else if t.kind s == .block then t.isBetween child typeFound true ss
    else if typeFound && !bodyFound && s == child then true
    else t.isBetween child typeFound bodyFound ss

/-- Whether `child` is an argument of the instance creation `parent`: it comes after the created
    type and before the body of an anonymous class. Only instance creations have arguments. -/
def isArgument (t : Tree) (parent child : t.Id) : Bool :=
  t.kind parent == .classInstanceCreation && t.isBetween child false false (t.children parent)

/-- Puts a name in front of a qualified name. -/
def qualify (name : String) : Option String → Option String
  | some rest => some s!"{name}.{rest}"
  | none => some name

/-- The package a package declaration names: the first label below it that is not empty. -/
def packageName? (t : Tree) (decl : t.Id) : Option String :=
  ((t.children decl).map t.label).find? fun label => !label.isEmpty

/-- Qualifies a name by one level of the tree: by its first simple name that is no argument, and by
    the packages declared before that, once there is something to qualify. -/
def qualifyLevel (t : Tree) (level : t.Id) (name : Option String) : List t.Id → Option String
  | [] => name
  | c :: cs =>
    if t.kind c == .simpleName && !t.isArgument level c then qualify (t.label c) name
    else if t.kind c == .packageDeclaration && name.isSome then
      match t.packageName? c with
      | some package => t.qualifyLevel level (qualify package name) cs
      | none => t.qualifyLevel level name cs
    else t.qualifyLevel level name cs

/-- The qualified name of a type declaration, from the package to its own name. -/
def classSignature? (t : Tree) (decl : t.Id) : Option String :=
  (decl :: t.ancestors decl).foldl (fun name level => t.qualifyLevel level name (t.children level))
    none

/-! ## 3. Methods -/

/-- The name and the type of a parameter as far as they have been seen. -/
structure ParameterParts where
  name : String
  type : String

/-- Looks at one node of a parameter: the last type and the last simple name count. -/
def ParameterParts.see (p : ParameterParts) (t : Tree) (i : t.Id) : ParameterParts :=
  { name := if t.kind i == .simpleName then t.label i else p.name
    type := if t.isType i then t.displayLabel i else p.type }

/-- The name and the type of a parameter. A declaration nested in it, as a parameter of variable
    length has it, comes after the node itself. -/
def parameterParts (t : Tree) (param : t.Id) : ParameterParts :=
  (t.children param).foldl (fun parts c =>
    let parts := parts.see t c
    if t.kind c == .singleVariableDeclaration then
      (t.children c).foldl (fun parts n => parts.see t n) parts
    else parts) ⟨"", ""⟩

/-- A parameter in a method signature. -/
def parameterText (t : Tree) (param : t.Id) : String :=
  let parts := t.parameterParts param
  s!"{parts.name} {parts.type}"

/-- What has been seen of a method declaration. -/
structure MethodParts where
  /-- Modifiers, name and parameters, in the order in which they stand. -/
  text : String
  returnType : Option String
  /-- The first type after a parameter. -/
  trailingType : Option String
  accessFound : Bool
  bodyFound : Bool
  paramFound : Bool

namespace MethodParts

/-- Nothing seen yet. -/
def empty : MethodParts := ⟨"", none, none, false, false, false⟩

/-- Looks at a modifier. -/
def seeModifier (p : MethodParts) (label : String) : MethodParts :=
  if label = "public" ∨ label = "private" ∨ label = "protected" then
    { p with text := p.text ++ label ++ " ", accessFound := true }
  else if label = "abstract" then { p with text := p.text ++ "abstract " }
  else if label = "default" then { p with text := p.text ++ "public ", accessFound := true }
  else p

/-- Looks at one child of a method declaration, knowing the one after it. -/
def see (p : MethodParts) (t : Tree) (c : t.Id) (next : Option t.Id) : MethodParts :=
  if t.kind c == .simpleName then { p with text := p.text ++ t.label c ++ "(" }
  else if t.isType c && p.returnType.isNone && !p.paramFound then
    { p with returnType := some (t.displayLabel c) }
  else if t.isType c && p.paramFound then
    { p with trailingType := p.trailingType.or (some (t.displayLabel c)) }
  else if t.kind c == .modifier then p.seeModifier (t.label c)
  else if t.kind c == .singleVariableDeclaration then
    let separator :=
      if (next.map t.kind) == some .singleVariableDeclaration then ", " else ""
    { p with text := p.text ++ t.parameterText c ++ separator, paramFound := true }
  else if t.kind c == .block then { p with bodyFound := true }
  else p

/-- Looks at the children of a method declaration, from left to right. -/
def seeAll (p : MethodParts) (t : Tree) : List t.Id → MethodParts
  | [] => p
  | c :: cs => (p.see t c cs.head?).seeAll t cs

/-- The return type. A declaration without a body cannot be a constructor, so a type that stands
    after its parameters is its return type when no other is there. -/
def result? (p : MethodParts) : Option String :=
  match p.returnType with
  | some type => some type
  | none => if p.bodyFound then none else p.trailingType

/-- The access that goes without saying: a method with a body belongs to its package, one without
    is part of an interface. -/
def impliedAccess (p : MethodParts) : String :=
  if p.accessFound then "" else if p.bodyFound then "package " else "public "

/-- The whole signature. -/
def render (p : MethodParts) : String :=
  p.impliedAccess ++ p.text ++ ")" ++
    match p.result? with
    | some type => " : " ++ type
    | none => ""

end MethodParts

/-- The signature of a method declaration. -/
def methodSignature (t : Tree) (method : t.Id) : String :=
  (MethodParts.empty.seeAll t (t.children method)).render

/-- The signature of the method around a node, empty outside methods, and the class that declares
    it. -/
def memberContext? (t : Tree) (i : t.Id) : Option (String × String) :=
  match t.enclosingMethod? i with
  | some method => do
    let owner ← t.classSignature? (← t.parent method)
    return (t.methodSignature method, owner)
  | none => do
    let owner ← t.classSignature? (← t.enclosingType? i)
    return ("", owner)

end Recast.Tree
