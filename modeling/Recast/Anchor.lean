import Recast.Tree.Basic

/-!
# Where an edit stands

What surrounds a node: the type it is part of, the method and the type declaration around it, and
its anchor, the node with its parent and grandparent.

* `Tree.outermostType?` climbs through references to types to a generic or array type at the top;
* `Anchor.ofType?` lifts an edit inside a reference to a type to that reference as a whole.
-/

namespace Recast

/-! ## 1. Surroundings -/

namespace Tree

/-- Whether a node is a generic type or an array type. -/
def isComposite (t : Tree) (i : t.Id) : Bool :=
  t.kind i == .parameterizedType || t.kind i == .arrayType

/-- The generic or array type at the top of the references to types that a node is part of. -/
def outermostType? (t : Tree) (i : t.Id) : Option t.Id :=
  if t.isType i then
    match _h : t.parent i with
    | some p =>
      if t.isType p then t.outermostType? p else if t.isComposite i then some i else none
    | none => if t.isComposite i then some i else none
  else none
termination_by i.val
decreasing_by exact parent_lt _h

/-- The nearest method declaration above a node. -/
def enclosingMethod? (t : Tree) (i : t.Id) : Option t.Id :=
  (t.ancestors i).find? fun a => t.kind a == .methodDeclaration

/-- The nearest type declaration above a node. -/
def enclosingType? (t : Tree) (i : t.Id) : Option t.Id :=
  (t.ancestors i).find? fun a => t.kind a == .typeDeclaration

end Tree

/-! ## 2. Anchors -/

/-- A node with its parent and grandparent. -/
structure Anchor (t : Tree) where
  node : t.Id
  parent : t.Id
  grandparent : Option t.Id
deriving DecidableEq

namespace Anchor

/-- The anchor of a node; the root has none. -/
def of? (t : Tree) (i : t.Id) : Option (Anchor t) :=
  (t.parent i).map fun p => ⟨i, p, t.parent p⟩

/-- The kind of the grandparent. -/
def grandparentKind? {t : Tree} (a : Anchor t) : Option Kind := a.grandparent.map t.kind

/-- Lifts a part of a generic or array type to the outermost such type. -/
def toOutermost {t : Tree} (a : Anchor t) : Option (Anchor t) :=
  match t.outermostType? a.parent with
  | some outer => of? t outer
  | none => some a

/-- Lifts an edit inside a reference to a type to the type as a whole: a simple name that spells
    the same as the type around it stands for that type, and a part of a generic or array type for
    the outermost such type. -/
def resolveType {t : Tree} (a : Anchor t) : Option (Anchor t) :=
  if t.isType a.parent then
    if t.kind a.node == .simpleName && t.displayLabel a.node == t.displayLabel a.parent then
      (of? t a.parent).bind toOutermost
    else a.toOutermost
  else some a

/-- The anchor of a node, lifted to the type it is part of. -/
def ofType? (t : Tree) (i : t.Id) : Option (Anchor t) := (of? t i).bind resolveType

end Anchor

end Recast
