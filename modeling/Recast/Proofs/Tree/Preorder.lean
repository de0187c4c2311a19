import Mathlib.Data.List.FinRange
import Mathlib.Data.List.Nodup
import Recast.Tree.Preorder

/-!
# The order in which a tree is read

A tree is read without missing a node and without reading one twice, and what is below a node is
read in one go.

* `disjoint_siblings`: nothing is below two siblings;
* `nodup_preorder`, `mem_preorder`: every node is read exactly once;
* `getElem?_rank`, `rank_injective`, `rank_lt`: so the places number the nodes anew;
* `rank_children`: siblings keep their order.
-/

namespace Recast.Tree

variable {t : Tree}

/-! ## 1. Below a node -/

theorem self_mem_preorderFrom (t : Tree) (i : t.Id) : i ∈ t.preorderFrom i := by
  rw [preorderFrom_eq]
  exact List.mem_cons_self

/-- What is read from a node on: the node, then what is read from its children on. -/
theorem mem_preorderFrom {i x : t.Id} :
    x ∈ t.preorderFrom i ↔ x = i ∨ ∃ c ∈ t.children i, x ∈ t.preorderFrom c := by
  rw [preorderFrom_eq, List.mem_cons, List.mem_flatten]
  simp only [List.mem_map, exists_exists_and_eq_and]

theorem le_of_mem_preorderFrom {i x : t.Id} (h : x ∈ t.preorderFrom i) : i.val ≤ x.val := by
  fun_induction preorderFrom t i with
  | case1 i ih =>
    rw [← preorderFrom, mem_preorderFrom] at h
    rcases h with rfl | ⟨c, hc, hx⟩
    · exact Nat.le_refl _
    · have h₁ := lt_of_mem_children hc
      have h₂ := ih c hc hx
      omega

/-- Whatever else is read from a node on hangs on something that is. -/
theorem exists_parent_of_mem_preorderFrom {i x : t.Id} (h : x ∈ t.preorderFrom i) (hne : x ≠ i) :
    ∃ p, t.parent x = some p ∧ p ∈ t.preorderFrom i := by
  fun_induction preorderFrom t i with
  | case1 i ih =>
    rw [← preorderFrom] at h ⊢
    rcases mem_preorderFrom.1 h with rfl | ⟨c, hc, hx⟩
    · exact absurd rfl hne
    · by_cases hxc : x = c
      · rw [hxc]
        exact ⟨i, mem_children_iff.1 hc, t.self_mem_preorderFrom i⟩
      · obtain ⟨p, hp, hmem⟩ := ih c hc hx hxc
        exact ⟨p, hp, mem_preorderFrom.2 (.inr ⟨c, hc, hmem⟩)⟩

/-! ## 2. Every node once -/

/-- Of two nodes with something below both, the one that comes first has the other below it. -/
theorem mem_preorderFrom_of_common {a b x : t.Id} (ha : x ∈ t.preorderFrom a)
    (hb : x ∈ t.preorderFrom b) (hab : a.val ≤ b.val) : b ∈ t.preorderFrom a := by
  -- climb from the common node until it is `b`
  induction hn : x.val using Nat.strongRecOn generalizing x with
  | ind n ih =>
    by_cases hxb : x = b
    · rwa [hxb] at ha
    · have hxa : x ≠ a := by
        rintro rfl
        have := le_of_mem_preorderFrom hb
        exact hxb (Fin.ext (by omega))
      obtain ⟨p, hp, hpa⟩ := exists_parent_of_mem_preorderFrom ha hxa
      obtain ⟨q, hq, hqb⟩ := exists_parent_of_mem_preorderFrom hb hxb
      obtain rfl : p = q := Option.some.inj (hp.symm.trans hq)
      exact ih p.val (hn ▸ parent_lt hp) hpa hqb rfl

theorem not_mem_preorderFrom_sibling {i a b : t.Id} (ha : a ∈ t.children i) (hb : b ∈ t.children i)
    (hne : a ≠ b) : b ∉ t.preorderFrom a := by
  intro h
  obtain ⟨p, hp, hmem⟩ := exists_parent_of_mem_preorderFrom h hne.symm
  obtain rfl : p = i := Option.some.inj (hp.symm.trans (mem_children_iff.1 hb))
  have h₁ := le_of_mem_preorderFrom hmem
  have h₂ := lt_of_mem_children ha
  omega

/-- Nothing is below two siblings. -/
theorem disjoint_siblings {i a b : t.Id} (ha : a ∈ t.children i) (hb : b ∈ t.children i)
    (hne : a ≠ b) : (t.preorderFrom a).Disjoint (t.preorderFrom b) := by
  intro x hxa hxb
  rcases Nat.le_total a.val b.val with hab | hba
  · exact not_mem_preorderFrom_sibling ha hb hne (mem_preorderFrom_of_common hxa hxb hab)
  · exact not_mem_preorderFrom_sibling hb ha hne.symm (mem_preorderFrom_of_common hxb hxa hba)

theorem root_not_mem_children (t : Tree) (i : t.Id) : t.root ∉ t.children i := by
  intro h
  have hparent := mem_children_iff.1 h
  rw [parent_eq_none_iff.2 rfl] at hparent
  cases hparent

theorem sorted_children (t : Tree) (i : t.Id) :
    (t.children i).Pairwise fun a b => a.val < b.val := by
  have h := t.linked.sorted (t.getElem?_nodes i)
  rw [children, List.pairwise_pmap]
  exact h.imp fun hab _ _ => hab

theorem nodup_preorderFrom (t : Tree) (i : t.Id) : (t.preorderFrom i).Nodup := by
  fun_induction preorderFrom t i with
  | case1 i ih =>
    rw [← preorderFrom, preorderFrom_eq, List.nodup_cons, List.nodup_flatten]
    refine ⟨?_, ?_, ?_⟩
    · intro h
      obtain ⟨l, hl, hi⟩ := List.mem_flatten.1 h
      obtain ⟨c, hc, rfl⟩ := List.mem_map.1 hl
      have h₁ := le_of_mem_preorderFrom hi
      have h₂ := lt_of_mem_children hc
      omega
    · intro l hl
      obtain ⟨c, hc, rfl⟩ := List.mem_map.1 hl
      exact ih c hc
    · rw [List.pairwise_map]
      refine (t.sorted_children i).imp_of_mem fun {a b} ha hb hab => ?_
      exact disjoint_siblings ha hb fun he => Nat.ne_of_lt hab (congrArg Fin.val he)

/-- **No node is read twice.** -/
theorem nodup_preorder (t : Tree) : t.preorder.Nodup := by
  rw [preorder_eq]
  exact t.nodup_preorderFrom t.root

/-- What is below a node is read in one go. -/
theorem preorderFrom_sublist_preorder (t : Tree) (i : t.Id) :
    (t.preorderFrom i).Sublist t.preorder := by
  -- from the root down, along the parents
  induction hn : i.val using Nat.strongRecOn generalizing i with
  | ind n ih =>
    cases hp : t.parent i with
    | none =>
      rw [parent_eq_none_iff.1 hp, preorder_eq]
    | some p =>
      refine List.Sublist.trans ?_ (ih p.val (hn ▸ parent_lt hp) p rfl)
      rw [t.preorderFrom_eq p]
      refine (List.sublist_flatten_of_mem ?_).cons p
      exact List.mem_map.2 ⟨i, mem_children_iff.2 hp, rfl⟩

/-- **Every node is read.** -/
theorem mem_preorder (t : Tree) (i : t.Id) : i ∈ t.preorder :=
  (t.preorderFrom_sublist_preorder i).subset (t.self_mem_preorderFrom i)

theorem preorder_perm_ids (t : Tree) : t.preorder.Perm t.ids :=
  (List.perm_ext_iff_of_nodup t.nodup_preorder (List.nodup_finRange _)).2 fun i =>
    ⟨fun _ => t.mem_ids i, fun _ => t.mem_preorder i⟩

theorem length_preorder (t : Tree) : t.preorder.length = t.nodes.size := by
  rw [t.preorder_perm_ids.length_eq, ids, List.length_finRange]

/-! ## 3. Places -/

theorem rank_lt (t : Tree) (i : t.Id) : t.rank i < t.nodes.size := by
  rw [← length_preorder]
  exact List.idxOf_lt_length_of_mem (t.mem_preorder i)

theorem getElem?_rank (t : Tree) (i : t.Id) : t.preorder[t.rank i]? = some i :=
  List.getElem?_idxOf (t.mem_preorder i)

theorem rank_injective {i j : t.Id} (h : t.rank i = t.rank j) : i = j := by
  have hi := t.getElem?_rank i
  rw [h, t.getElem?_rank j] at hi
  exact (Option.some.inj hi).symm

theorem rank_root (t : Tree) : t.rank t.root = 0 := by
  rw [rank, preorder_eq, preorderFrom_eq, List.idxOf_cons_self]

/-- A node that is read after `pre` has its place there. -/
theorem rank_eq_length {pre post : List t.Id} {i : t.Id} (h : t.preorder = pre ++ i :: post) :
    t.rank i = pre.length := by
  have hnodup := t.nodup_preorder
  rw [h, List.nodup_append] at hnodup
  have hi : i ∉ pre := fun hmem => hnodup.2.2 i hmem i List.mem_cons_self rfl
  rw [rank, h, List.idxOf_append_of_notMem hi, List.idxOf_cons_self, Nat.add_zero]

theorem pairwise_rank_preorder (t : Tree) :
    t.preorder.Pairwise fun a b => t.rank a < t.rank b := by
  rw [List.pairwise_iff_getElem]
  intro m n hm hn hmn
  rw [rank, rank, t.nodup_preorder.idxOf_getElem, t.nodup_preorder.idxOf_getElem]
  exact hmn

theorem children_sublist_preorder (t : Tree) (i : t.Id) : (t.children i).Sublist t.preorder := by
  refine List.Sublist.trans ?_ (t.preorderFrom_sublist_preorder i)
  rw [preorderFrom_eq]
  refine List.Sublist.cons i ?_
  have h : ∀ cs : List t.Id, cs.Sublist (cs.map t.preorderFrom).flatten := by
    intro cs
    induction cs with
    | nil => exact .slnil
    | cons c cs ih =>
      rw [List.map_cons, List.flatten_cons, preorderFrom_eq]
      exact (ih.trans (List.sublist_append_right _ _)).cons_cons c
  exact h _

/-- **Siblings are read from left to right.** -/
theorem rank_children (t : Tree) (i : t.Id) :
    (t.children i).Pairwise fun a b => t.rank a < t.rank b :=
  t.pairwise_rank_preorder.sublist (t.children_sublist_preorder i)

theorem rankOf_val (t : Tree) (i : t.Id) : t.rankOf i.val = t.rank i := by
  unfold rankOf find?
  rw [dif_pos i.isLt]

end Recast.Tree
