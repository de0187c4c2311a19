/-!
# Edit scripts

An edit script turns one tree into another, one primitive edit at a time. An insertion names a node
of the later tree; every other edit names a node of the earlier one.

Edits are grouped by their key, a sentence made of the edit's name and of the label before
and after it.
-/

namespace Recast

/-- A primitive edit of a tree. -/
inductive Edit where
  | insert (node : Nat)
  | delete (node : Nat)
  | update (node : Nat) (label : String)
  | move (node : Nat)
deriving DecidableEq, Repr

/-- The key of a change from one label to another. -/
def relabelKey (name old new : String) : String := s!"{name} from {old} to {new}"

namespace Edit

/-- The name an edit is written by. -/
def name : Edit → String
  | .insert _ => "insert-node"
  | .delete _ => "delete-node"
  | .update _ _ => "update-node"
  | .move _ => "move-tree"

/-- The node an edit is about. -/
def node : Edit → Nat
  | .insert n | .delete n | .update n _ | .move n => n

/-- The label an update gives; other edits give none. -/
def newLabel? : Edit → Option String
  | .update _ label => some label
  | _ => none

/-- Whether the edit names a node of the later tree. -/
def isInsert : Edit → Bool
  | .insert _ => true
  | _ => false

/-- The key of an edit whose node had the label `old` before it. -/
def key (e : Edit) (old : String) : String := relabelKey e.name old (e.newLabel?.getD "")

/-- The same edit of a renumbered node: `before` renumbers the earlier tree, `after` the later. -/
def renumber (before after : Nat → Nat) : Edit → Edit
  | .insert n => .insert (after n)
  | .delete n => .delete (before n)
  | .update n label => .update (before n) label
  | .move n => .move (before n)

end Edit

end Recast
