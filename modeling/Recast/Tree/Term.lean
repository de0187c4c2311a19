import Recast.Tree.Basic

/-!
# Subtrees as terms

A subtree read as a term keeps kinds, labels and the order of children, and forgets numbers, spans
and texts. Two nodes, of one tree or of two, are isomorphic when they read as the same term; the
test compares pair after pair from a stack and builds no term.

* `Term` and `Tree.term`: the reading;
* `Tree.isomorphic`: the test.
-/

namespace Recast

/-! ## 1. Terms -/

/-- A labelled ordered tree. -/
inductive Term where
  | node (kind : Kind) (label : String) (children : List Term)

mutual

/-- The number of nodes of a term. -/
def Term.size : Term → Nat
  | .node _ _ children => 1 + Term.sizes children

/-- The number of nodes of a list of terms. -/
def Term.sizes : List Term → Nat
  | [] => 0
  | t :: ts => t.size + Term.sizes ts

end

theorem Term.size_pos (t : Term) : 0 < t.size := by
  obtain ⟨_, _, _⟩ := t
  rw [size]
  omega

namespace Tree

/-- The subtree at a node, read as a term. -/
def term (t : Tree) (i : t.Id) : Term :=
  .node (t.kind i) (t.label i) ((t.children i).attach.map fun ⟨c, _⟩ => t.term c)
termination_by t.nodes.size - i.val
decreasing_by
  have := lt_of_mem_children ‹c ∈ t.children i›
  omega

theorem term_eq (t : Tree) (i : t.Id) :
    t.term i = .node (t.kind i) (t.label i) ((t.children i).map t.term) := by
  rw [term]
  simp

/-- The number of nodes of the subtree at a node. -/
def weight (t : Tree) (i : t.Id) : Nat := (t.term i).size

theorem weight_eq (t : Tree) (i : t.Id) :
    t.weight i = 1 + Term.sizes ((t.children i).map t.term) := by
  rw [weight, term_eq, Term.size]

theorem weight_pos (t : Tree) (i : t.Id) : 0 < t.weight i := Term.size_pos _

/-! ## 2. The test -/

/-- The weight of what a stack still has to compare, counted on its left. -/
def pending {s t : Tree} : List (s.Id × t.Id) → Nat
  | [] => 0
  | (a, _) :: work => s.weight a + pending work

theorem pending_append {s t : Tree} (xs ys : List (s.Id × t.Id)) :
    pending (xs ++ ys) = pending xs + pending ys := by
  induction xs with
  | nil => simp [pending]
  | cons x xs ih => simp [pending, ih, Nat.add_assoc]

theorem pending_zip_le {s t : Tree} (as : List s.Id) (bs : List t.Id) :
    pending (as.zip bs) ≤ Term.sizes (as.map s.term) := by
  induction as generalizing bs with
  | nil => simp [pending]
  | cons a as ih =>
    cases bs with
    | nil => simp [pending]
    | cons b bs => exact Nat.add_le_add_left (ih bs) _

theorem pending_reverse {s t : Tree} (xs : List (s.Id × t.Id)) :
    pending xs.reverse = pending xs := by
  induction xs with
  | nil => rfl
  | cons x xs ih =>
    rw [List.reverse_cons, pending_append, ih, pending, pending, pending, Nat.add_zero,
      Nat.add_comm]

/-- Replacing a pair by the pairs of its children leaves less to compare. -/
theorem pending_children_lt {s t : Tree} (a : s.Id) (b : t.Id) (work : List (s.Id × t.Id)) :
    pending (((s.children a).zip (t.children b)).reverse ++ work) < pending ((a, b) :: work) := by
  have h := pending_zip_le (t := t) (s.children a) (t.children b)
  rw [pending_append, pending_reverse, pending, weight_eq]
  omega

/-- Whether two nodes agree in kind, label and number of children. -/
def alike (s : Tree) (a : s.Id) (t : Tree) (b : t.Id) : Bool :=
  s.kind a == t.kind b && s.label a == t.label b &&
    (s.children a).length == (t.children b).length

/-- Whether every pair of a stack, and every pair of descendants below it, is alike. The pairs of
    children are laid on the stack from left to right, so the last of them is taken next. -/
def allAlike (s t : Tree) : List (s.Id × t.Id) → Bool
  | [] => true
  | (a, b) :: work =>
    s.alike a t b && s.allAlike t (((s.children a).zip (t.children b)).reverse ++ work)
termination_by work => pending work
decreasing_by exact pending_children_lt a b work

/-- Whether the subtrees at two nodes have equal kinds, equal labels and the same shape. -/
def isomorphic (s : Tree) (a : s.Id) (t : Tree) (b : t.Id) : Bool := s.allAlike t [(a, b)]

end Tree

end Recast
