import Recast.Diff
import Recast.Tree.Term

/-!
# Matching by shape

The plainest way to connect two trees: pair nodes that stand at the same place, as long as their
kinds agree, and go below a pair only when both have the same number of children. The script that
goes with it updates the labels that differ, deletes what has no counterpart in the later tree and
inserts what has none in the earlier one.

* `matchByShape`: the correspondence;
* `labelUpdates`, `shapeScript`: the script, its updates alone or all of it;
* `labelDiff`: the difference of two trees that differ in labels only.
-/

namespace Recast

/-- Pairs the nodes of a stack, and what is below them, as far as the shapes agree. The last child
    is taken first. -/
def pairShapes (s t : Tree) (m : Correspondence) :
    List (s.Id × t.Id) → Except MappingError Correspondence
  | [] => .ok m
  | (a, b) :: work =>
    if s.kind a = t.kind b then
      match m.insert a b with
      | .error e => .error e
      | .ok m =>
        if (s.children a).length = (t.children b).length then
          pairShapes s t m (((s.children a).zip (t.children b)).reverse ++ work)
        else pairShapes s t m work
    else pairShapes s t m work
termination_by work => Tree.pending work
decreasing_by
  · exact Tree.pending_children_lt a b work
  all_goals
    exact Nat.lt_add_of_pos_left (s.weight_pos a)

/-- The correspondence of the nodes that stand at the same place in trees of the same shape. -/
def matchByShape (s t : Tree) : Except Fault Correspondence :=
  (pairShapes s t .empty [(s.root, t.root)]).mapError fun e =>
    .stopped s!"shape matching visits every node once: {e.message}"

/-- The update of a pair whose labels differ. -/
def labelUpdate? (s t : Tree) (p : Nat × Nat) : Except Fault (Option Edit) := do
  let i ← s.resolve p.1
  let j ← t.resolve p.2
  return if s.label i = t.label j then none else some (.update p.1 (t.label j))

/-- The updates of all pairs whose labels differ, in the order of the earlier nodes. -/
def labelUpdates (s t : Tree) (m : Correspondence) : Except Fault (List Edit) :=
  gather (labelUpdate? s t) m.pairs

/-- The updates of labels, then the deletions and insertions of nodes without a counterpart. -/
def shapeScript (s t : Tree) (m : Correspondence) : Except Fault (List Edit) := do
  let updates ← labelUpdates s t m
  let deleted := (List.range s.nodes.size).filter fun i => (m.dst? i).isNone
  let inserted := (List.range t.nodes.size).filter fun j => (m.src? j).isNone
  return updates ++ deleted.map .delete ++ inserted.map .insert

/-- The difference of two trees by shape, with the updates of labels as its script. -/
def labelDiff (before after : Tree) : Except Fault Diff := do
  let mapping ← matchByShape before after
  let script ← labelUpdates before after mapping
  return { before, after, mapping, script }

end Recast
