import Recast.Tree.Term

/-!
# What the comparison of two subtrees decides

The comparison takes pair after pair from a stack and builds no term. It succeeds exactly when
both nodes of every pair read as the same term, in whatever way the two trees number their nodes.

* `map_term_eq_iff`: lists of nodes read alike when they are as long and their pairs read alike;
* `term_eq_iff`: two nodes read alike when they are alike and the pairs of their children read
  alike;
* `isomorphic_iff_term_eq`: **the comparison decides whether two nodes read as the same term**;
* `descend?`, `rel_descend?`: below nodes that read alike the same paths lead to nodes, and to nodes
  that read alike;
* `isomorphic_structural`: **so the comparison is an equivalence across trees, and what is at equal
  places below two isomorphic nodes is isomorphic.**
-/

namespace Recast.Tree

variable {s t : Tree}

/-! ## 1. The comparison and the reading -/

theorem alike_iff {a : s.Id} {b : t.Id} :
    s.alike a t b = true ↔ s.kind a = t.kind b ∧ s.label a = t.label b ∧
      (s.children a).length = (t.children b).length := by
  unfold alike
  rw [Bool.and_eq_true, Bool.and_eq_true, beq_iff_eq, beq_iff_eq, beq_iff_eq, and_assoc]

/-- Two lists of nodes read alike exactly when they have one length and read alike pair by pair. -/
theorem map_term_eq_iff {as : List s.Id} {bs : List t.Id} :
    as.map s.term = bs.map t.term ↔
      as.length = bs.length ∧ ∀ p ∈ as.zip bs, s.term p.1 = t.term p.2 := by
  induction as generalizing bs with
  | nil =>
    cases bs with
    | nil => simp
    | cons b bs => simp
  | cons a as ih =>
    cases bs with
    | nil => simp
    | cons b bs =>
      rw [List.map_cons, List.map_cons, List.cons_eq_cons, ih, List.zip_cons_cons,
        List.forall_mem_cons, List.length_cons, List.length_cons, Nat.add_right_cancel_iff]
      exact and_left_comm

/-- One level of the reading. -/
theorem term_eq_iff {a : s.Id} {b : t.Id} :
    s.term a = t.term b ↔ s.alike a t b = true ∧
      ∀ p ∈ (s.children a).zip (t.children b), s.term p.1 = t.term p.2 := by
  rw [term_eq, term_eq, Term.node.injEq, map_term_eq_iff, alike_iff, and_assoc, and_assoc]

/-- The stack is worked off exactly when each of its pairs reads alike. -/
theorem allAlike_iff (work : List (s.Id × t.Id)) :
    s.allAlike t work = true ↔ ∀ p ∈ work, s.term p.1 = t.term p.2 := by
  fun_induction allAlike s t work with
  | case1 => simp
  | case2 a b work ih =>
    rw [Bool.and_eq_true, ih, List.forall_mem_append, List.forall_mem_cons, ← and_assoc,
      term_eq_iff]
    simp only [List.mem_reverse]

/-- **The comparison decides whether two nodes read as the same term.** -/
theorem isomorphic_iff_term_eq {a : s.Id} {b : t.Id} :
    s.isomorphic a t b = true ↔ s.term a = t.term b := by
  rw [isomorphic, allAlike_iff]
  exact List.forall_mem_singleton

theorem isomorphic_refl (a : t.Id) : t.isomorphic a t a = true := isomorphic_iff_term_eq.2 rfl

/-! ## 2. Paths -/

/-- The node that a path of places among siblings leads to. -/
def descend? (t : Tree) (i : t.Id) : List Nat → Option t.Id
  | [] => some i
  | k :: path => (t.children i)[k]?.bind fun c => t.descend? c path

theorem descend?_cons_eq_some {i x : t.Id} {k : Nat} {path : List Nat} :
    t.descend? i (k :: path) = some x ↔
      ∃ c, (t.children i)[k]? = some c ∧ t.descend? c path = some x := by
  rw [descend?, Option.bind_eq_some_iff]

/-- The children of nodes that read alike read alike, place by place. -/
theorem rel_children {a : s.Id} {b : t.Id} (h : s.term a = t.term b) (k : Nat) :
    Option.Rel (fun c d => s.term c = t.term d) (s.children a)[k]? (t.children b)[k]? := by
  rw [term_eq, term_eq, Term.node.injEq] at h
  have hk : ((s.children a)[k]?).map s.term = ((t.children b)[k]?).map t.term := by
    rw [← List.getElem?_map, ← List.getElem?_map, h.2.2]
  cases hc : (s.children a)[k]? with
  | none =>
    cases hd : (t.children b)[k]? with
    | none => exact .none
    | some d =>
      rw [hc, hd] at hk
      cases hk
  | some c =>
    cases hd : (t.children b)[k]? with
    | none =>
      rw [hc, hd] at hk
      cases hk
    | some d =>
      rw [hc, hd] at hk
      exact .some (Option.some.inj hk)

/-- **Below nodes that read alike the same paths lead to nodes, and to nodes that read alike.** -/
theorem rel_descend? {a : s.Id} {b : t.Id} (h : s.term a = t.term b) (path : List Nat) :
    Option.Rel (fun i j => s.term i = t.term j) (s.descend? a path) (t.descend? b path) := by
  induction path generalizing a b with
  | nil => exact .some h
  | cons k path ih =>
    have hchildren := rel_children h k
    unfold descend?
    generalize (s.children a)[k]? = c at hchildren ⊢
    generalize (t.children b)[k]? = d at hchildren ⊢
    cases hchildren with
    | none => exact .none
    | some hterm => exact ih hterm

/-- **The comparison is structural equality**: it decides whether two nodes read as the same term,
    so it is an equivalence across trees, and whatever a path leads to below one of two isomorphic
    nodes is isomorphic to what it leads to below the other. -/
theorem isomorphic_structural :
    (∀ (s t : Tree) (a : s.Id) (b : t.Id), s.isomorphic a t b = true ↔ s.term a = t.term b) ∧
      Equivalence (fun x y : (t : Tree) × t.Id => x.1.isomorphic x.2 y.1 y.2 = true) ∧
      ∀ (s t : Tree) (a : s.Id) (b : t.Id), s.isomorphic a t b = true → ∀ path : List Nat,
        Option.Rel (fun i j => s.isomorphic i t j = true) (s.descend? a path)
          (t.descend? b path) := by
  refine ⟨fun s t a b => isomorphic_iff_term_eq, ⟨fun x => isomorphic_refl x.2, ?_, ?_⟩, ?_⟩
  · intro x y hxy
    exact isomorphic_iff_term_eq.2 (isomorphic_iff_term_eq.1 hxy).symm
  · intro x y z hxy hyz
    exact isomorphic_iff_term_eq.2
      ((isomorphic_iff_term_eq.1 hxy).trans (isomorphic_iff_term_eq.1 hyz))
  · intro s t a b h path
    simp only [isomorphic_iff_term_eq] at h ⊢
    exact rel_descend? h path

end Recast.Tree
