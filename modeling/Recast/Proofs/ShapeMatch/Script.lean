import Recast.Proofs.Document.Load
import Recast.Proofs.ShapeMatch.Place

/-!
# The script that goes with matching by shape

The script of two matched trees says of each node what becomes of it. It deletes what is not matched
in the earlier tree, inserts what is not matched in the later one, and updates the matched nodes
whose labels differ, so that it is empty only where there is nothing to tell.

* `Accounts`: a script accounts for every node once, in order;
* `exists_shapeScript`: the script of a correspondence between nodes of two trees does;
* `Correspondence.Identifies.shapeScript_eq`: trees that are identified need no edit;
* `term_eq_of_covered`: when matching leaves out no node and no label differs, the trees read alike;
* `shapeScript_accounts`: **the script of two trees accounts for every node, and it is empty exactly
  when the trees are isomorphic.**
-/

namespace Recast

variable {s t : Tree} {m : Correspondence}

/-! ## 1. What the script says -/

/-- A script accounts for every node of two trees once: its updates come first, then its deletions
    and then its insertions, each in increasing order of the nodes. A node of the earlier tree is
    either paired or deleted, one of the later tree either paired or inserted, and a pair is updated,
    to the later label, when its labels differ. Nothing else is edited. -/
structure Accounts (s t : Tree) (m : Correspondence) (script : List Edit) : Prop where
  ordered : ∃ (updates : List Edit) (deleted inserted : List Nat),
    script = updates ++ deleted.map .delete ++ inserted.map .insert ∧
    (∀ e ∈ updates, ∃ n label, e = .update n label) ∧
    updates.Pairwise (fun e f => e.node < f.node) ∧ deleted.Pairwise (· < ·) ∧
    inserted.Pairwise (· < ·)
  earlier : ∀ i : s.Id, (∃ d, m.dst? i = some d) ↔ .delete i.val ∉ script
  later : ∀ j : t.Id, (∃ n, m.src? j = some n) ↔ .insert j.val ∉ script
  updated : ∀ n label, .update n label ∈ script ↔ ∃ (i : s.Id) (j : t.Id), n = i.val ∧
    m.dst? i = some j.val ∧ s.label i ≠ t.label j ∧ label = t.label j
  names : ∀ e ∈ script, e.Names s t

/-- A pair gives an update when it is one of nodes whose labels differ. -/
theorem labelUpdate?_eq_some {p : Nat × Nat} {e : Edit} :
    labelUpdate? s t p = .ok (some e) ↔ ∃ (i : s.Id) (j : t.Id), p = (i.val, j.val) ∧
      s.label i ≠ t.label j ∧ e = .update i.val (t.label j) := by
  unfold labelUpdate?
  simp only [bind_eq_ok, Tree.resolve_eq_ok]
  constructor
  · intro hexists
    obtain ⟨i, hi, j, hj, h⟩ := hexists
    split at h
    · cases h
    · rename_i hlabel
      cases h
      exact ⟨i, j, Prod.ext hi.symm hj.symm, hlabel, by rw [hi]⟩
  · intro hexists
    obtain ⟨i, j, rfl, hlabel, rfl⟩ := hexists
    refine ⟨i, rfl, j, rfl, ?_⟩
    rw [if_neg hlabel]
    rfl

/-- The updates of a correspondence between nodes: those of the pairs whose labels differ. -/
theorem exists_labelUpdates
    (hnodes : ∀ p ∈ m.pairs, ∃ (i : s.Id) (j : t.Id), p = (i.val, j.val)) :
    ∃ updates, labelUpdates s t m = .ok updates ∧
      updates.Pairwise (fun e f => e.node < f.node) ∧
      ∀ e, e ∈ updates ↔ ∃ (i : s.Id) (j : t.Id), (i.val, j.val) ∈ m.pairs ∧
        s.label i ≠ t.label j ∧ e = .update i.val (t.label j) := by
  have htotal : ∀ p ∈ m.pairs, ∃ o, labelUpdate? s t p = .ok o := by
    intro p hp
    obtain ⟨i, j, rfl⟩ := hnodes p hp
    unfold labelUpdate?
    rw [Tree.resolve_of_lt i.isLt, Tree.resolve_of_lt j.isLt]
    exact ⟨_, rfl⟩
  obtain ⟨updates, hupdates⟩ := exists_gather htotal
  refine ⟨updates, hupdates, pairwise_gather (fun p q e f hpq he hf => ?_) m.sorted hupdates,
    fun e => ?_⟩
  · obtain ⟨i, j, rfl, -, rfl⟩ := labelUpdate?_eq_some.1 he
    obtain ⟨i', j', rfl, -, rfl⟩ := labelUpdate?_eq_some.1 hf
    exact hpq
  · rw [mem_gather hupdates]
    constructor
    · intro hexists
      obtain ⟨p, hp, he⟩ := hexists
      obtain ⟨i, j, rfl, h⟩ := labelUpdate?_eq_some.1 he
      exact ⟨i, j, hp, h⟩
    · intro hexists
      obtain ⟨i, j, hp, h⟩ := hexists
      exact ⟨_, hp, labelUpdate?_eq_some.2 ⟨i, j, rfl, h⟩⟩

/-- **The script of a correspondence between nodes of two trees accounts for every node.** -/
theorem exists_shapeScript (hnodes : ∀ p ∈ m.pairs, ∃ (i : s.Id) (j : t.Id), p = (i.val, j.val)) :
    ∃ script, shapeScript s t m = .ok script ∧ Accounts s t m script := by
  obtain ⟨updates, hupdates, hsorted, hmem⟩ := exists_labelUpdates hnodes
  let deleted := (List.range s.nodes.size).filter fun i => (m.dst? i).isNone
  let inserted := (List.range t.nodes.size).filter fun j => (m.src? j).isNone
  have hdeleted {n : Nat} : n ∈ deleted ↔ n < s.nodes.size ∧ m.dst? n = none := by
    rw [List.mem_filter, List.mem_range, Option.isNone_iff_eq_none]
  have hinserted {n : Nat} : n ∈ inserted ↔ n < t.nodes.size ∧ m.src? n = none := by
    rw [List.mem_filter, List.mem_range, Option.isNone_iff_eq_none]
  have hscript : shapeScript s t m =
      .ok (updates ++ deleted.map .delete ++ inserted.map .insert) := by
    unfold shapeScript
    rw [hupdates]
    rfl
  refine ⟨_, hscript, ⟨updates, deleted, inserted, rfl, fun e he => ?_, hsorted,
    List.pairwise_lt_range.filter _, List.pairwise_lt_range.filter _⟩, fun i => ?_, fun j => ?_,
    fun n label => ?_, fun e he => ?_⟩
  · obtain ⟨i, j, -, -, rfl⟩ := (hmem e).1 he
    exact ⟨_, _, rfl⟩
  · simp [hmem, hdeleted, Option.ne_none_iff_exists']
  · simp [hmem, hinserted, Option.ne_none_iff_exists']
  · have hupdate : Edit.update n label ∈ updates ++ deleted.map .delete ++ inserted.map .insert ↔
        .update n label ∈ updates := by simp
    rw [hupdate, hmem]
    simp only [Correspondence.dst?_eq_some_iff, Edit.update.injEq]
    constructor
    · intro hexists
      obtain ⟨i, j, hp, hlabel, hn, hl⟩ := hexists
      exact ⟨i, j, hn, hp, hlabel, hl⟩
    · intro hexists
      obtain ⟨i, j, hn, hp, hlabel, hl⟩ := hexists
      exact ⟨i, j, hp, hlabel, hn, hl⟩
  · rcases List.mem_append.1 he with he | he
    · rcases List.mem_append.1 he with he | he
      · obtain ⟨i, j, -, -, rfl⟩ := (hmem e).1 he
        exact i.isLt
      · obtain ⟨n, hn, rfl⟩ := List.mem_map.1 he
        exact (hdeleted.1 hn).1
    · obtain ⟨n, hn, rfl⟩ := List.mem_map.1 he
      exact (hinserted.1 hn).1

/-! ## 2. Empty scripts -/

namespace Correspondence.Identifies

theorem labelUpdates_eq (h : m.Identifies s t) : labelUpdates s t m = .ok [] := by
  refine gather_eq_nil fun p hp => ?_
  obtain ⟨i, j, rfl, hterm⟩ := h.alike p hp
  obtain ⟨-, hlabel, -⟩ := Tree.alike_iff.1 (Tree.term_eq_iff.1 hterm).1
  unfold labelUpdate?
  rw [Tree.resolve_of_lt i.isLt, Tree.resolve_of_lt j.isLt]
  exact congrArg Except.ok (if_pos hlabel)

/-- **Trees that are identified need no edit.** -/
theorem shapeScript_eq (h : m.Identifies s t) : shapeScript s t m = .ok [] := by
  have hdeleted : (List.range s.nodes.size).filter (fun i => (m.dst? i).isNone) = [] := by
    refine List.filter_eq_nil_iff.2 fun i hi => ?_
    obtain ⟨j, hj⟩ := h.earlier ⟨i, List.mem_range.1 hi⟩
    rw [dst?_eq_some_iff.2 hj]
    exact Bool.false_ne_true
  have hinserted : (List.range t.nodes.size).filter (fun j => (m.src? j).isNone) = [] := by
    refine List.filter_eq_nil_iff.2 fun j hj => ?_
    obtain ⟨i, hi⟩ := h.later ⟨j, List.mem_range.1 hj⟩
    rw [src?_eq_some_iff.2 hi]
    exact Bool.false_ne_true
  unfold shapeScript
  rw [h.labelUpdates_eq, hdeleted, hinserted]
  rfl

end Correspondence.Identifies

section Covered

variable {i c : s.Id} {j d : t.Id}

/-- A node is aligned with one node at most. -/
theorem Aligned.right_unique {j' : t.Id} (h : Aligned s t s.root t.root i j)
    (h' : Aligned s t s.root t.root i j') : j = j' := by
  obtain ⟨m, -, hm⟩ := matchByShape_spec s t
  have hj := hm.dst?_eq_some_iff.2 h
  rw [hm.dst?_eq_some_iff.2 h', Option.some_inj] at hj
  exact Fin.ext hj.symm

/-- The counterparts of the children of a node are children of its counterpart, of which there are
    then equally many. -/
theorem Aligned.child (h : Aligned s t s.root t.root i j) (hc : c ∈ s.children i)
    (hcd : Aligned s t s.root t.root c d) :
    (s.children i).length = (t.children j).length ∧
      (c, d) ∈ (s.children i).zip (t.children j) := by
  rcases hcd.eq_or_child with ⟨rfl, -⟩ | ⟨p, q, hpq, hlength, hmem⟩
  · exact absurd hc (s.root_not_mem_children i)
  · -- the counterpart of the parent is one node, by whichever way it is found
    have hp := Tree.mem_children_iff.1 (List.of_mem_zip hmem).1
    obtain rfl : p = i := Option.some.inj (hp.symm.trans (Tree.mem_children_iff.1 hc))
    obtain rfl := h.right_unique hpq
    exact ⟨hlength, hmem⟩

variable (hearlier : ∀ i : s.Id, ∃ j : t.Id, Aligned s t s.root t.root i j)
  (hlater : ∀ j : t.Id, ∃ i : s.Id, Aligned s t s.root t.root i j)
include hearlier hlater

/-- When matching leaves out no node, aligned nodes have equally many children. -/
theorem length_eq_of_covered (h : Aligned s t s.root t.root i j) :
    (s.children i).length = (t.children j).length := by
  by_cases hi : ∃ c, c ∈ s.children i
  · obtain ⟨c, hc⟩ := hi
    obtain ⟨d, hcd⟩ := hearlier c
    exact (h.child hc hcd).1
  · by_cases hj : ∃ d, d ∈ t.children j
    · obtain ⟨d, hd⟩ := hj
      obtain ⟨c, hcd⟩ := hlater d
      exact (h.symm.child hd hcd.symm).1.symm
    · have hnil := List.eq_nil_iff_forall_not_mem.2 fun c hc => hi ⟨c, hc⟩
      have hnil' := List.eq_nil_iff_forall_not_mem.2 fun d hd => hj ⟨d, hd⟩
      rw [hnil, hnil', List.length_nil, List.length_nil]

/-- When matching leaves out no node, the children of aligned nodes are aligned in order. -/
theorem aligned_children_of_covered (h : Aligned s t s.root t.root i j) {q : s.Id × t.Id}
    (hq : q ∈ (s.children i).zip (t.children j)) : Aligned s t s.root t.root q.1 q.2 := by
  obtain ⟨d, hd⟩ := hearlier q.1
  have hmem := (h.child (List.of_mem_zip hq).1 hd).2
  have hfst := List.map_fst_zip (Nat.le_of_eq (length_eq_of_covered hearlier hlater h))
  have hdistinct : ((s.children i).zip (t.children j)).Pairwise fun p q => p.1 ≠ q.1 := by
    refine List.pairwise_map.1 (?_ : (_ : List s.Id).Pairwise _)
    rw [hfst]
    exact (s.sorted_children i).imp fun hlt he => Nat.ne_of_lt hlt (congrArg Fin.val he)
  have hsame : q = (q.1, d) := eq_of_key_eq hdistinct hq hmem rfl
  rw [hsame]
  exact hd

/-- **When matching leaves out no node and no label differs, aligned nodes read alike.** -/
theorem term_eq_of_covered
    (hlabel : ∀ i j, Aligned s t s.root t.root i j → s.label i = t.label j)
    (h : Aligned s t s.root t.root i j) : s.term i = t.term j := by
  -- from the leaves up; the counterparts of the children are known only by their places
  induction i using Tree.term.induct s generalizing j with
  | case1 i ih =>
    refine Tree.term_eq_iff.2 ⟨Tree.alike_iff.2 ⟨h.kind_eq, hlabel i j h, ?_⟩, fun q hq => ?_⟩
    · exact length_eq_of_covered hearlier hlater h
    · exact ih q.1 (List.of_mem_zip hq).1 (aligned_children_of_covered hearlier hlater h hq)

end Covered

/-! ## 3. Matched trees -/

/-- An empty script leaves out no node, and no label differs. -/
theorem Accounts.term_eq (hm : m.PairsAligned s t) (h : Accounts s t m []) :
    s.term s.root = t.term t.root := by
  have hearlier (i : s.Id) : ∃ j : t.Id, Aligned s t s.root t.root i j := by
    obtain ⟨d, hd⟩ := (h.earlier i).2 List.not_mem_nil
    obtain ⟨i', j, hij, he⟩ := (hm _).1 (Correspondence.dst?_eq_some_iff.1 hd)
    obtain rfl : i = i' := Fin.ext (Prod.mk.inj he).1
    exact ⟨j, hij⟩
  have hlater (j : t.Id) : ∃ i : s.Id, Aligned s t s.root t.root i j := by
    obtain ⟨n, hn⟩ := (h.later j).2 List.not_mem_nil
    obtain ⟨i, j', hij, he⟩ := (hm _).1 (Correspondence.src?_eq_some_iff.1 hn)
    obtain rfl : j = j' := Fin.ext (Prod.mk.inj he).2
    exact ⟨i, hij⟩
  have hlabel (i : s.Id) (j : t.Id) (hij : Aligned s t s.root t.root i j) :
      s.label i = t.label j := by
    by_contra hne
    have hdst := hm.dst?_eq_some_iff.2 hij
    exact List.not_mem_nil ((h.updated _ _).2 ⟨i, j, rfl, hdst, hne, rfl⟩)
  -- the root has a counterpart, and it is not below another node
  obtain ⟨j, hj⟩ := hearlier s.root
  rcases hj.eq_or_child with ⟨-, rfl⟩ | ⟨p, q, -, -, hmem⟩
  · exact term_eq_of_covered hearlier hlater hlabel hj
  · exact absurd (List.of_mem_zip hmem).1 (s.root_not_mem_children p)

/-- **The script of two trees matched by shape accounts for every node, and it is empty exactly when
    the trees are isomorphic.** -/
theorem shapeScript_accounts (s t : Tree) :
    ∃ m script, matchByShape s t = .ok m ∧ shapeScript s t m = .ok script ∧
      Accounts s t m script ∧ (script = [] ↔ s.isomorphic s.root t t.root = true) := by
  obtain ⟨m, hm, hpairs⟩ := matchByShape_spec s t
  have hnodes : ∀ p ∈ m.pairs, ∃ (i : s.Id) (j : t.Id), p = (i.val, j.val) := by
    intro p hp
    obtain ⟨i, j, -, he⟩ := (hpairs p).1 hp
    exact ⟨i, j, he⟩
  obtain ⟨script, hscript, haccounts⟩ := exists_shapeScript hnodes
  refine ⟨m, script, hm, hscript, haccounts, ?_⟩
  rw [Tree.isomorphic_iff_term_eq]
  constructor
  · intro hnil
    subst hnil
    exact haccounts.term_eq hpairs
  · intro hterm
    obtain ⟨m', hm', hidentifies⟩ := matchByShape_of_term_eq hterm
    obtain rfl : m = m' := Except.ok.inj (hm.symm.trans hm')
    exact Except.ok.inj (hscript.symm.trans hidentifies.shapeScript_eq)

end Recast
