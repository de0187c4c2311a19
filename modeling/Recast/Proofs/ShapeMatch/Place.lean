import Recast.Proofs.ShapeMatch

/-!
# Where matched nodes stand

Two nodes are matched by shape when one path leads to both of them from the roots and the trees
have one shape along it. This is said here of the paths alone, without the way in which matching
goes through the trees.

* `SamePlace`: a path leads to two nodes, with equal kinds on the way and equally many children
  above its end;
* `aligned_iff`: nodes are aligned when some path leads to both of them in this way;
* `Aligned.eq_or_child`: aligned nodes other than the roots are children of aligned nodes, at equal
  places among their siblings;
* `matchByShape_exact`: **matching succeeds and pairs exactly the nodes at the same place; so the
  parents of a pair are a pair, and matching the other way round gives the inverse.**
-/

namespace Recast

variable {s t : Tree}

/-! ## 1. Places -/

/-- The path leads from `a` to `i` and from `b` to `j`. All the way the kinds agree, at its end
    included, and above its end so do the numbers of children. -/
structure SamePlace (s t : Tree) (a : s.Id) (b : t.Id) (path : List Nat) (i : s.Id) (j : t.Id) :
    Prop where
  earlier : s.descend? a path = some i
  later : t.descend? b path = some j
  kinds : ∀ front, front <+: path → ∀ x y, s.descend? a front = some x →
    t.descend? b front = some y → s.kind x = t.kind y
  lengths : ∀ front, front <+: path → front ≠ path → ∀ x y, s.descend? a front = some x →
    t.descend? b front = some y → (s.children x).length = (t.children y).length

namespace SamePlace

variable {a i : s.Id} {b j : t.Id} {c : s.Id} {d : t.Id} {k : Nat} {path : List Nat}

/-- No step at all. -/
theorem nil (hkind : s.kind a = t.kind b) : SamePlace s t a b [] a b where
  earlier := rfl
  later := rfl
  kinds front hfront x y hx hy := by
    obtain rfl := List.prefix_nil.1 hfront
    cases hx
    cases hy
    exact hkind
  lengths front hfront hne := absurd (List.prefix_nil.1 hfront) hne

/-- A front of a path is empty, or goes on from the first step of the path. -/
theorem front_cases (hc : (s.children a)[k]? = some c) (hd : (t.children b)[k]? = some d)
    {front : List Nat} (hfront : front <+: k :: path) {x : s.Id} {y : t.Id}
    (hx : s.descend? a front = some x) (hy : t.descend? b front = some y) :
    (front = [] ∧ x = a ∧ y = b) ∨ ∃ rest, front = k :: rest ∧ rest <+: path ∧
      s.descend? c rest = some x ∧ t.descend? d rest = some y := by
  rcases List.prefix_cons_iff.1 hfront with rfl | ⟨rest, rfl, hrest⟩
  · exact .inl ⟨rfl, (Option.some.inj hx).symm, (Option.some.inj hy).symm⟩
  · obtain ⟨c', hc', hx⟩ := Tree.descend?_cons_eq_some.1 hx
    obtain ⟨d', hd', hy⟩ := Tree.descend?_cons_eq_some.1 hy
    obtain rfl : c = c' := Option.some.inj (hc.symm.trans hc')
    obtain rfl : d = d' := Option.some.inj (hd.symm.trans hd')
    exact .inr ⟨rest, rfl, hrest, hx, hy⟩

/-- One more step at the front. -/
theorem cons (hkind : s.kind a = t.kind b)
    (hlength : (s.children a).length = (t.children b).length) (hc : (s.children a)[k]? = some c)
    (hd : (t.children b)[k]? = some d) (h : SamePlace s t c d path i j) :
    SamePlace s t a b (k :: path) i j where
  earlier := Tree.descend?_cons_eq_some.2 ⟨c, hc, h.earlier⟩
  later := Tree.descend?_cons_eq_some.2 ⟨d, hd, h.later⟩
  kinds front hfront x y hx hy := by
    rcases front_cases hc hd hfront hx hy with ⟨-, rfl, rfl⟩ | ⟨rest, -, hrest, hx, hy⟩
    · exact hkind
    · exact h.kinds rest hrest x y hx hy
  lengths front hfront hne x y hx hy := by
    rcases front_cases hc hd hfront hx hy with ⟨-, rfl, rfl⟩ | ⟨rest, rfl, hrest, hx, hy⟩
    · exact hlength
    · exact h.lengths rest hrest (fun he => hne (congrArg _ he)) x y hx hy

/-- The first step of a path, and what is left of it. -/
theorem of_cons (h : SamePlace s t a b (k :: path) i j) :
    s.kind a = t.kind b ∧ (s.children a).length = (t.children b).length ∧
      ∃ c d, (s.children a)[k]? = some c ∧ (t.children b)[k]? = some d ∧
        SamePlace s t c d path i j := by
  obtain ⟨c, hc, hi⟩ := Tree.descend?_cons_eq_some.1 h.earlier
  obtain ⟨d, hd, hj⟩ := Tree.descend?_cons_eq_some.1 h.later
  have hback {x : s.Id} {front : List Nat} (hx : s.descend? c front = some x) :
      s.descend? a (k :: front) = some x := Tree.descend?_cons_eq_some.2 ⟨c, hc, hx⟩
  have hback' {y : t.Id} {front : List Nat} (hy : t.descend? d front = some y) :
      t.descend? b (k :: front) = some y := Tree.descend?_cons_eq_some.2 ⟨d, hd, hy⟩
  refine ⟨h.kinds [] List.nil_prefix a b rfl rfl,
    h.lengths [] List.nil_prefix (List.cons_ne_nil k path).symm a b rfl rfl, c, d, hc, hd, hi, hj,
    fun front hfront x y hx hy => ?_, fun front hfront hne x y hx hy => ?_⟩
  · exact h.kinds (k :: front) ((List.prefix_cons_inj k).2 hfront) x y (hback hx) (hback' hy)
  · exact h.lengths (k :: front) ((List.prefix_cons_inj k).2 hfront)
      (fun he => hne (List.cons.inj he).2) x y (hback hx) (hback' hy)

theorem of_nil (h : SamePlace s t a b [] i j) : s.kind a = t.kind b ∧ i = a ∧ j = b :=
  ⟨h.kinds [] List.nil_prefix a b rfl rfl, (Option.some.inj h.earlier).symm,
    (Option.some.inj h.later).symm⟩

end SamePlace

/-- **Nodes are aligned when some path leads to both of them.** -/
theorem aligned_iff {a i : s.Id} {b j : t.Id} :
    Aligned s t a b i j ↔ ∃ path, SamePlace s t a b path i j := by
  constructor
  · intro h
    -- each step down is a step at the front of the path
    induction h with
    | here hkind => exact ⟨[], .nil hkind⟩
    | @down a i b j q hkind hlength hq _ ih =>
      obtain ⟨path, hpath⟩ := ih
      obtain ⟨k, hk⟩ := List.getElem?_of_mem hq
      obtain ⟨hc, hd⟩ := List.getElem?_zip_eq_some.1 hk
      exact ⟨k :: path, hpath.cons hkind hlength hc hd⟩
  · intro hexists
    obtain ⟨path, h⟩ := hexists
    induction path generalizing a b with
    | nil =>
      obtain ⟨hkind, rfl, rfl⟩ := h.of_nil
      exact .here hkind
    | cons k path ih =>
      obtain ⟨hkind, hlength, c, d, hc, hd, hpath⟩ := h.of_cons
      have hq : (c, d) ∈ (s.children a).zip (t.children b) :=
        List.mem_of_getElem? (List.getElem?_zip_eq_some.2 ⟨hc, hd⟩)
      exact .down hkind hlength hq (ih hpath)

/-! ## 2. Parents -/

theorem Aligned.kind_eq {a i : s.Id} {b j : t.Id} (h : Aligned s t a b i j) :
    s.kind i = t.kind j := by
  induction h with
  | here hkind => exact hkind
  | down _ _ _ _ ih => exact ih

/-- **Aligned nodes are where the way starts, or children of aligned nodes**, at equal places among
    equally many siblings. -/
theorem Aligned.eq_or_child {a i : s.Id} {b j : t.Id} (h : Aligned s t a b i j) :
    (i = a ∧ j = b) ∨ ∃ p q, Aligned s t a b p q ∧
      (s.children p).length = (t.children q).length ∧
      (i, j) ∈ (s.children p).zip (t.children q) := by
  -- the parents move down with the way, once there is a step in it
  induction h with
  | here hkind => exact .inl ⟨rfl, rfl⟩
  | @down a i b j q hkind hlength hq _ ih =>
    rcases ih with ⟨rfl, rfl⟩ | ⟨p, p', hp, hlength', hmem⟩
    · exact .inr ⟨a, b, .here hkind, hlength, hq⟩
    · exact .inr ⟨p, p', .down hkind hlength hq hp, hlength', hmem⟩

/-! ## 3. Matching -/

/-- **Matching by shape is exact**: it succeeds, and a node is paired with another exactly when one
    path leads to both from the roots, with equal kinds all the way and equally many children above
    its end. So the parents of a pair are a pair, unless it is that of the roots, and matching the
    trees the other way round gives the inverse. -/
theorem matchByShape_exact (s t : Tree) :
    ∃ m m', matchByShape s t = .ok m ∧ matchByShape t s = .ok m' ∧
      (∀ n k, m.dst? n = some k ↔
        ∃ path i j, SamePlace s t s.root t.root path i j ∧ n = i.val ∧ k = j.val) ∧
      (∀ (i : s.Id) (j : t.Id), m.dst? i = some j.val → (i, j) ≠ (s.root, t.root) →
        ∃ p q, s.parent i = some p ∧ t.parent j = some q ∧ m.dst? p = some q.val) ∧
      ∀ n k, m'.dst? k = some n ↔ m.dst? n = some k := by
  obtain ⟨m, hm, hpairs⟩ := matchByShape_spec s t
  obtain ⟨m', hm', hpairs'⟩ := matchByShape_spec t s
  refine ⟨m, m', hm, hm', fun n k => ?_, fun i j hij hne => ?_, fun n k => ?_⟩
  · rw [Correspondence.dst?_eq_some_iff, hpairs]
    simp only [aligned_iff, Prod.mk.injEq]
    constructor
    · intro hexists
      obtain ⟨i, j, ⟨path, h⟩, hn, hk⟩ := hexists
      exact ⟨path, i, j, h, hn, hk⟩
    · intro hexists
      obtain ⟨path, i, j, h, hn, hk⟩ := hexists
      exact ⟨i, j, ⟨path, h⟩, hn, hk⟩
  · rcases (hpairs.dst?_eq_some_iff.1 hij).eq_or_child with ⟨rfl, rfl⟩ | ⟨p, q, hpq, -, hmem⟩
    · exact absurd rfl hne
    · obtain ⟨hi, hj⟩ := List.of_mem_zip hmem
      exact ⟨p, q, Tree.mem_children_iff.1 hi, Tree.mem_children_iff.1 hj,
        hpairs.dst?_eq_some_iff.2 hpq⟩
  · rw [Correspondence.dst?_eq_some_iff, Correspondence.dst?_eq_some_iff, hpairs, hpairs']
    constructor
    · intro hexists
      obtain ⟨j, i, h, he⟩ := hexists
      exact ⟨i, j, h.symm, congrArg Prod.swap he⟩
    · intro hexists
      obtain ⟨i, j, h, he⟩ := hexists
      exact ⟨j, i, h.symm, congrArg Prod.swap he⟩

end Recast
