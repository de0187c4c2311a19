import Recast.Correspondence
import Recast.Edit
import Recast.Tree.Basic

/-!
# Differences of trees

A difference is what classification reads: an earlier and a later tree, a correspondence between
their nodes, and the edit script that leads from one to the other. Nothing forces the numbers in the
correspondence and in the script to be nodes of the trees; `Diff.InRange` says that they are.
-/

namespace Recast

/-- Two versions of a tree with what connects them. -/
structure Diff where
  before : Tree
  after : Tree
  mapping : Correspondence
  script : List Edit

/-- Every pair names a node on either side, and every update and move a node of the earlier tree.
    Insertions and deletions are never looked up and may carry any number. -/
structure Diff.InRange (d : Diff) : Prop where
  mapping : ∀ p ∈ d.mapping.pairs, p.1 < d.before.nodes.size ∧ p.2 < d.after.nodes.size
  update : ∀ n label, .update n label ∈ d.script → n < d.before.nodes.size
  move : ∀ n, .move n ∈ d.script → n < d.before.nodes.size

end Recast
