import Mathlib.Data.List.Zip
import Recast.Proofs.Correspondence
import Recast.Proofs.Fault
import Recast.Proofs.Tree.Isomorphic
import Recast.Proofs.Tree.Preorder
import Recast.ShapeMatch

/-!
# What matching by shape pairs

Matching works off a stack of pairs and puts the pairs of their children in their place. As long as
what is below the pairs of the stack is disjoint on either side, no node comes up twice, so that
every pair fits.

* `Aligned`: two nodes stand at the same place below two others, as far as the shapes agree;
* `PairedBelow`: the numbers of two nodes aligned below a pair of a stack;
* `Unvisited`: a stack of pairs with nothing below it that is paired already or comes up twice;
* `exists_pairShapes`: such a stack is worked off, and the pairs added are the aligned ones;
* `matchByShape_spec`: **matching two trees succeeds and pairs exactly the nodes that are aligned
  below the roots**;
* `Correspondence.Identifies`, `matchByShape_of_term_eq`: in trees that read alike these are all
  nodes, each with one that reads alike.
-/

namespace Recast

variable {s t : Tree}

/-! ## 1. Aligned nodes -/

/-- `i` and `j` stand at the same place below `a` and `b`: on the way down kinds agree, the last
    pair included, and above the last pair so do the numbers of children. -/
inductive Aligned (s t : Tree) : s.Id → t.Id → s.Id → t.Id → Prop where
  | here {a : s.Id} {b : t.Id} (hkind : s.kind a = t.kind b) : Aligned s t a b a b
  | down {a i : s.Id} {b j : t.Id} {q : s.Id × t.Id} (hkind : s.kind a = t.kind b)
      (hlength : (s.children a).length = (t.children b).length)
      (hq : q ∈ (s.children a).zip (t.children b)) (h : Aligned s t q.1 q.2 i j) :
      Aligned s t a b i j

/-- A pair of numbers is that of two nodes aligned below a pair of the stack. -/
def PairedBelow (work : List (s.Id × t.Id)) (p : Nat × Nat) : Prop :=
  ∃ q ∈ work, ∃ i j, Aligned s t q.1 q.2 i j ∧ p = (i.val, j.val)

section PairedBelow

variable {a : s.Id} {b : t.Id} {work : List (s.Id × t.Id)} {p : Nat × Nat}

/-- A pair of different kinds has nothing aligned below it. -/
theorem pairedBelow_of_kind_ne (hkind : s.kind a ≠ t.kind b) :
    PairedBelow ((a, b) :: work) p ↔ PairedBelow work p := by
  constructor
  · rintro ⟨q, hq, i, j, h, hp⟩
    rcases List.mem_cons.1 hq with rfl | hq
    · cases h with
      | here hkind' => exact absurd hkind' hkind
      | down hkind' _ _ _ => exact absurd hkind' hkind
    · exact ⟨q, hq, i, j, h, hp⟩
  · rintro ⟨q, hq, h⟩
    exact ⟨q, List.mem_cons_of_mem _ hq, h⟩

/-- Of a pair of one kind with different numbers of children only the pair itself is aligned. -/
theorem pairedBelow_of_length_ne (hkind : s.kind a = t.kind b)
    (hlength : (s.children a).length ≠ (t.children b).length) :
    PairedBelow ((a, b) :: work) p ↔ p = (a.val, b.val) ∨ PairedBelow work p := by
  constructor
  · rintro ⟨q, hq, i, j, h, hp⟩
    rcases List.mem_cons.1 hq with rfl | hq
    · cases h with
      | here _ => exact .inl hp
      | down _ hlength' _ _ => exact absurd hlength' hlength
    · exact .inr ⟨q, hq, i, j, h, hp⟩
  · rintro (hp | ⟨q, hq, h⟩)
    · exact ⟨_, List.mem_cons_self, a, b, .here hkind, hp⟩
    · exact ⟨q, List.mem_cons_of_mem _ hq, h⟩

/-- Otherwise the pair itself is, and what is aligned below the pairs of the children. -/
theorem pairedBelow_of_length_eq (hkind : s.kind a = t.kind b)
    (hlength : (s.children a).length = (t.children b).length) :
    PairedBelow ((a, b) :: work) p ↔ p = (a.val, b.val) ∨
      PairedBelow (((s.children a).zip (t.children b)).reverse ++ work) p := by
  constructor
  · rintro ⟨q, hq, i, j, h, hp⟩
    rcases List.mem_cons.1 hq with rfl | hq
    · cases h with
      | here _ => exact .inl hp
      | down _ _ hq h =>
        exact .inr ⟨_, List.mem_append_left _ (List.mem_reverse.2 hq), i, j, h, hp⟩
    · exact .inr ⟨q, List.mem_append_right _ hq, i, j, h, hp⟩
  · rintro (hp | ⟨q, hq, i, j, h, hp⟩)
    · exact ⟨_, List.mem_cons_self, a, b, .here hkind, hp⟩
    · rcases List.mem_append.1 hq with hq | hq
      · exact ⟨_, List.mem_cons_self, i, j, .down hkind hlength (List.mem_reverse.1 hq) h, hp⟩
      · exact ⟨q, List.mem_cons_of_mem _ hq, i, j, h, hp⟩

end PairedBelow

/-! ## 2. What is still to be visited -/

namespace Tree

/-- What is below some nodes, the nodes themselves included. -/
def below (t : Tree) (nodes : List t.Id) : List t.Id := nodes.flatMap t.preorderFrom

theorem below_cons (t : Tree) (i : t.Id) (nodes : List t.Id) :
    t.below (i :: nodes) = i :: t.below (t.children i ++ nodes) := by
  unfold below
  rw [List.flatMap_cons, preorderFrom_eq, List.cons_append, List.flatMap_append, ← List.flatMap_def]

theorem below_sublist {nodes nodes' : List t.Id} (h : nodes.Sublist nodes') :
    (t.below nodes).Sublist (t.below nodes') := by
  induction h with
  | slnil => exact .refl _
  | cons i _ ih => exact ih.trans (List.sublist_append_right _ _)
  | cons_cons i _ ih => exact ih.append_left _

/-- Nothing below some nodes comes up twice or is taken already. -/
structure Untaken (t : Tree) (taken : List Nat) (nodes : List t.Id) : Prop where
  nodup : (t.below nodes).Nodup
  free : ∀ i ∈ t.below nodes, i.val ∉ taken

namespace Untaken

variable {taken taken' : List Nat} {i : t.Id} {nodes nodes' : List t.Id}

theorem root (t : Tree) : t.Untaken [] [t.root] where
  nodup := by
    rw [below, List.flatMap_singleton]
    exact t.nodup_preorderFrom t.root
  free _ _ := List.not_mem_nil

theorem head (h : t.Untaken taken (i :: nodes)) : i.val ∉ taken :=
  h.free i (t.below_cons i nodes ▸ List.mem_cons_self)

theorem of_sublist (h : t.Untaken taken nodes) (hs : nodes'.Sublist nodes) :
    t.Untaken taken nodes' where
  nodup := h.nodup.sublist (below_sublist hs)
  free j hj := h.free j ((below_sublist hs).subset hj)

/-- Nor does it in whatever order the nodes stand. -/
theorem perm (h : t.Untaken taken nodes) (hp : nodes.Perm nodes') : t.Untaken taken nodes' where
  nodup := (hp.flatMap_right _).nodup h.nodup
  free j hj := h.free j ((hp.flatMap_right _).symm.subset hj)

/-- **One step**: the first node is taken, and its children come in its place. -/
theorem children (h : t.Untaken taken (i :: nodes)) (ht : ∀ n ∈ taken', n = i.val ∨ n ∈ taken) :
    t.Untaken taken' (t.children i ++ nodes) := by
  obtain ⟨hnodup, hfree⟩ := h
  rw [below_cons] at hnodup hfree
  obtain ⟨hi, hnodup⟩ := List.nodup_cons.1 hnodup
  refine ⟨hnodup, fun j hj hmem => ?_⟩
  rcases ht _ hmem with hij | hmem
  · exact hi (Fin.ext hij ▸ hj)
  · exact hfree j (List.mem_cons_of_mem _ hj) hmem

end Untaken

end Tree

/-- On neither side anything below the pairs of a stack comes up twice or is paired already. -/
structure Unvisited (m : Correspondence) (work : List (s.Id × t.Id)) : Prop where
  earlier : s.Untaken (m.pairs.map (·.1)) (work.map (·.1))
  later : t.Untaken (m.pairs.map (·.2)) (work.map (·.2))

namespace Unvisited

variable {m m' : Correspondence} {a : s.Id} {b : t.Id} {work : List (s.Id × t.Id)}

/-- The first pair may be dropped. -/
theorem tail (h : Unvisited m ((a, b) :: work)) : Unvisited m work :=
  ⟨h.earlier.of_sublist (List.sublist_cons_self _ _),
    h.later.of_sublist (List.sublist_cons_self _ _)⟩

/-- The first pair fits. -/
theorem exists_insert (h : Unvisited m ((a, b) :: work)) :
    ∃ m', m.insert a.val b.val = .ok m' := by
  refine Correspondence.insert_of_fresh (fun p hp he => ?_) fun p hp he => ?_
  · exact h.earlier.head (List.mem_map.2 ⟨p, hp, he⟩)
  · exact h.later.head (List.mem_map.2 ⟨p, hp, he⟩)

/-- When the first pair is inserted, the children of its nodes come in their place. -/
theorem inserted (h : Unvisited m ((a, b) :: work)) (hm : m.insert a.val b.val = .ok m') :
    s.Untaken (m'.pairs.map (·.1)) (s.children a ++ work.map (·.1)) ∧
      t.Untaken (m'.pairs.map (·.2)) (t.children b ++ work.map (·.2)) := by
  have htaken (f : Nat × Nat → Nat) :
      ∀ n ∈ m'.pairs.map f, n = f (a.val, b.val) ∨ n ∈ m.pairs.map f := by
    intro n hn
    obtain ⟨p, hp, rfl⟩ := List.mem_map.1 hn
    rw [Correspondence.pairs_insert hm] at hp
    rcases mem_insertPair.1 hp with rfl | hp
    · exact .inl rfl
    · exact .inr (List.mem_map.2 ⟨p, hp, rfl⟩)
  exact ⟨h.earlier.children (htaken (·.1)), h.later.children (htaken (·.2))⟩

/-- **One step**: the first pair is inserted and replaced by the pairs of its children. -/
theorem children (h : Unvisited m ((a, b) :: work)) (hm : m.insert a.val b.val = .ok m')
    (hlength : (s.children a).length = (t.children b).length) :
    Unvisited m' (((s.children a).zip (t.children b)).reverse ++ work) := by
  obtain ⟨he, hl⟩ := h.inserted hm
  constructor
  · rw [List.map_append, List.map_reverse, List.map_fst_zip (Nat.le_of_eq hlength)]
    exact he.perm ((List.reverse_perm _).symm.append_right _)
  · rw [List.map_append, List.map_reverse, List.map_snd_zip (Nat.le_of_eq hlength.symm)]
    exact hl.perm ((List.reverse_perm _).symm.append_right _)

/-- The first pair may also be inserted without its children. -/
theorem insert (h : Unvisited m ((a, b) :: work)) (hm : m.insert a.val b.val = .ok m') :
    Unvisited m' work := by
  obtain ⟨he, hl⟩ := h.inserted hm
  exact ⟨he.of_sublist (List.sublist_append_right _ _),
    hl.of_sublist (List.sublist_append_right _ _)⟩

end Unvisited

/-! ## 3. Matching -/

/-- **A stack with nothing visited is worked off**, and the pairs added are the aligned ones. -/
theorem exists_pairShapes {m : Correspondence} {work : List (s.Id × t.Id)} (h : Unvisited m work) :
    ∃ m', pairShapes s t m work = .ok m' ∧
      ∀ p, p ∈ m'.pairs ↔ p ∈ m.pairs ∨ PairedBelow work p := by
  have hinsert {m m' : Correspondence} {i j : Nat} {p : Nat × Nat} (hm : m.insert i j = .ok m') :
      p ∈ m'.pairs ↔ p ∈ m.pairs ∨ p = (i, j) := by
    rw [Correspondence.pairs_insert hm, mem_insertPair, or_comm]
  fun_induction pairShapes s t m work with
  | case1 m => exact ⟨m, rfl, fun p => by simp [PairedBelow]⟩
  | case2 m a b work hkind e hm =>
    obtain ⟨m', hm'⟩ := h.exists_insert
    rw [hm] at hm'
    cases hm'
  | case3 m a b work hkind m' hm hlength ih =>
    obtain ⟨m'', hwork, hpairs⟩ := ih (h.children hm hlength)
    refine ⟨m'', hwork, fun p => ?_⟩
    rw [hpairs, hinsert hm, or_assoc, pairedBelow_of_length_eq hkind hlength]
  | case4 m a b work hkind m' hm hlength ih =>
    obtain ⟨m'', hwork, hpairs⟩ := ih (h.insert hm)
    refine ⟨m'', hwork, fun p => ?_⟩
    rw [hpairs, hinsert hm, or_assoc, pairedBelow_of_length_ne hkind hlength]
  | case5 m a b work hkind ih =>
    obtain ⟨m', hwork, hpairs⟩ := ih h.tail
    refine ⟨m', hwork, fun p => ?_⟩
    rw [hpairs, pairedBelow_of_kind_ne hkind]

/-- A correspondence pairs exactly the nodes that are aligned below the roots. -/
def Correspondence.PairsAligned (m : Correspondence) (s t : Tree) : Prop :=
  ∀ p, p ∈ m.pairs ↔ ∃ i j, Aligned s t s.root t.root i j ∧ p = (i.val, j.val)

theorem Correspondence.PairsAligned.dst?_eq_some_iff {m : Correspondence} (h : m.PairsAligned s t)
    {i : s.Id} {j : t.Id} : m.dst? i.val = some j.val ↔ Aligned s t s.root t.root i j := by
  rw [Correspondence.dst?_eq_some_iff, h]
  constructor
  · rintro ⟨i', j', hij, he⟩
    obtain ⟨hi, hj⟩ := Prod.mk.inj he
    obtain rfl := Fin.ext hi
    obtain rfl := Fin.ext hj
    exact hij
  · intro hij
    exact ⟨i, j, hij, rfl⟩

/-- **Matching two trees succeeds and pairs exactly the nodes that are aligned below the roots.** -/
theorem matchByShape_spec (s t : Tree) :
    ∃ m, matchByShape s t = .ok m ∧ m.PairsAligned s t := by
  have hstart : Unvisited .empty [(s.root, t.root)] := ⟨.root s, .root t⟩
  obtain ⟨m, hm, hpairs⟩ := exists_pairShapes hstart
  refine ⟨m, mapError_eq_ok.2 hm, fun p => ?_⟩
  rw [hpairs]
  constructor
  · rintro (hp | ⟨q, hq, h⟩)
    · exact absurd hp List.not_mem_nil
    · rwa [List.mem_singleton.1 hq] at h
  · intro h
    exact .inr ⟨_, List.mem_singleton_self _, h⟩

/-! ## 4. Trees that read alike -/

theorem Aligned.symm {a i : s.Id} {b j : t.Id} (h : Aligned s t a b i j) :
    Aligned t s b a j i := by
  induction h with
  | here hkind => exact .here hkind.symm
  | @down a i b j q hkind hlength hq _ ih =>
    have hswap : q.swap ∈ (t.children b).zip (s.children a) := by
      rw [← List.zip_swap]
      exact List.mem_map_of_mem hq
    exact .down hkind.symm hlength.symm hswap ih

/-- What is aligned below nodes that read alike reads alike. -/
theorem Aligned.term_eq {a i : s.Id} {b j : t.Id} (h : Aligned s t a b i j)
    (hterm : s.term a = t.term b) : s.term i = t.term j := by
  induction h with
  | here _ => exact hterm
  | down _ _ hq _ ih => exact ih ((Tree.term_eq_iff.1 hterm).2 _ hq)

/-- Below nodes that read alike every node is aligned with another. -/
theorem exists_aligned {a i : s.Id} {b : t.Id} (hterm : s.term a = t.term b)
    (hi : i ∈ s.preorderFrom a) : ∃ j, Aligned s t a b i j := by
  fun_induction Tree.preorderFrom s a generalizing b with
  | case1 a ih =>
    rw [← Tree.preorderFrom] at hi
    obtain ⟨halike, hbelow⟩ := Tree.term_eq_iff.1 hterm
    obtain ⟨hkind, -, hlength⟩ := Tree.alike_iff.1 halike
    rcases Tree.mem_preorderFrom.1 hi with rfl | ⟨c, hc, hi⟩
    · exact ⟨b, .here hkind⟩
    · have hzip := List.map_fst_zip (Nat.le_of_eq hlength)
      obtain ⟨q, hq, rfl⟩ := List.mem_map.1 (hzip.symm ▸ hc)
      obtain ⟨j, hj⟩ := ih q.1 hc (hbelow q hq) hi
      exact ⟨j, .down hkind hlength hq hj⟩

/-- A correspondence that leaves out no node of either tree and pairs only nodes that read alike. -/
structure Correspondence.Identifies (m : Correspondence) (s t : Tree) : Prop where
  alike : ∀ p ∈ m.pairs, ∃ i j, p = (i.val, j.val) ∧ s.term i = t.term j
  earlier : ∀ i : s.Id, ∃ j : t.Id, (i.val, j.val) ∈ m.pairs
  later : ∀ j : t.Id, ∃ i : s.Id, (i.val, j.val) ∈ m.pairs

/-- **Matching trees that read alike identifies them.** -/
theorem matchByShape_of_term_eq (h : s.term s.root = t.term t.root) :
    ∃ m, matchByShape s t = .ok m ∧ m.Identifies s t := by
  obtain ⟨m, hm, hpairs⟩ := matchByShape_spec s t
  refine ⟨m, hm, fun p hp => ?_, fun i => ?_, fun j => ?_⟩
  · obtain ⟨i, j, hij, rfl⟩ := (hpairs p).1 hp
    exact ⟨i, j, rfl, hij.term_eq h⟩
  · have hi : i ∈ s.preorderFrom s.root := s.preorder_eq ▸ s.mem_preorder i
    obtain ⟨j, hij⟩ := exists_aligned h hi
    exact ⟨j, (hpairs _).2 ⟨i, j, hij, rfl⟩⟩
  · have hj : j ∈ t.preorderFrom t.root := t.preorder_eq ▸ t.mem_preorder j
    obtain ⟨i, hij⟩ := exists_aligned h.symm hj
    exact ⟨i, (hpairs _).2 ⟨i, j, hij.symm, rfl⟩⟩

end Recast
