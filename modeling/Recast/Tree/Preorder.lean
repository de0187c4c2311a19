import Recast.Tree.Basic

/-!
# Pre-order

Numbers follow the order in which nodes were added, and that need not be the order in which the
tree is read. `Tree.preorder` lists the nodes as they are read, a node before what is below it and
its children from left to right; `Tree.rank` is the place of a node in that list.
-/

namespace Recast.Tree

/-- The nodes of the subtree at a node, as they are read. -/
def preorderFrom (t : Tree) (i : t.Id) : List t.Id :=
  i :: ((t.children i).attach.map fun ⟨c, _⟩ => t.preorderFrom c).flatten
termination_by t.nodes.size - i.val
decreasing_by
  have := lt_of_mem_children ‹c ∈ t.children i›
  omega

theorem preorderFrom_eq (t : Tree) (i : t.Id) :
    t.preorderFrom i = i :: ((t.children i).map t.preorderFrom).flatten := by
  rw [preorderFrom]
  simp

/-- All nodes, as they are read. -/
def preorder (t : Tree) : List t.Id := t.preorderFrom t.root

theorem preorder_eq (t : Tree) : t.preorder = t.preorderFrom t.root := rfl

/-- The place of a node among all nodes as they are read. -/
def rank (t : Tree) (i : t.Id) : Nat := t.preorder.idxOf i

/-- The place of the node with a given number; a number that is not there stands for itself. -/
def rankOf (t : Tree) (i : Nat) : Nat :=
  match t.find? i with
  | some i => t.rank i
  | none => i

end Recast.Tree
