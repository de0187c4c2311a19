import Recast.Correspondence
import Recast.Proofs.Keyed

/-!
# Correspondences and their pairs

A lookup in a correspondence, from either side, is membership in its pairs, and an insertion that
fits adds exactly one pair.

* `PairTables.Mirrored.dst?_eq_some_iff`, `PairTables.Mirrored.src?_eq_some_iff`: the counterpart of
  a node is the other half of its pair, whichever table it is looked up in;
* `pairs_insert`: an insertion that fits adds one pair;
* `eq_of_perm`: a correspondence does not depend on the order in which its pairs came;
* `insert_of_fresh`, `insert_of_source_mapped`, `insert_of_destination_mapped`: a pair of nodes that
  are both free fits, and otherwise the one that is taken is named;
* `perm_of_insertAll`, `exists_insertAll`: a list of pairs is collected when no node is named twice,
  and then in full.
-/

namespace Recast

/-! ## 1. Tables in step -/

namespace PairTables.Mirrored

variable {m m' : PairTables} {s d : Nat}

theorem distinct_fst (h : m.Mirrored) : m.pairs.Pairwise fun p q => p.1 ≠ q.1 :=
  h.sorted.imp Nat.ne_of_lt

theorem distinct_turned (h : m.Mirrored) : m.turned.Pairwise fun p q => p.1 ≠ q.1 :=
  h.sortedTurned.imp Nat.ne_of_lt

/-- No later node is in two pairs, since none has two entries in the second table. -/
theorem distinct_snd (h : m.Mirrored) : m.pairs.Pairwise fun p q => p.2 ≠ q.2 :=
  (List.pairwise_map (f := Prod.swap)).1 (h.distinct_turned.perm h.turned_perm fun hne => hne.symm)

theorem mem_turned (h : m.Mirrored) : (d, s) ∈ m.turned ↔ (s, d) ∈ m.pairs := by
  rw [h.turned_perm.mem_iff]
  exact List.mem_map_of_injective Prod.swap_injective (a := (s, d))

/-- **The counterpart of a node is the other half of its pair.** -/
theorem dst?_eq_some_iff (h : m.Mirrored) : m.dst? s = some d ↔ (s, d) ∈ m.pairs := by
  unfold dst?
  simp only [Option.map_eq_some_iff, find?_key_eq_some_iff h.distinct_fst]
  constructor
  · intro hexists
    obtain ⟨p, ⟨hp, rfl⟩, rfl⟩ := hexists
    exact hp
  · intro hp
    exact ⟨(s, d), ⟨hp, rfl⟩, rfl⟩

theorem src?_eq_some_iff (h : m.Mirrored) : m.src? d = some s ↔ (s, d) ∈ m.pairs := by
  rw [← h.mem_turned]
  unfold src?
  simp only [Option.map_eq_some_iff, find?_key_eq_some_iff h.distinct_turned]
  constructor
  · intro hexists
    obtain ⟨p, ⟨hp, rfl⟩, rfl⟩ := hexists
    exact hp
  · intro hp
    exact ⟨(d, s), ⟨hp, rfl⟩, rfl⟩

/-- A node is a key of the second table when it is the later half of a pair. -/
theorem exists_turned_iff (h : m.Mirrored) :
    (∃ p ∈ m.turned, p.1 = d) ↔ ∃ p ∈ m.pairs, p.2 = d := by
  constructor
  · intro hexists
    obtain ⟨p, hp, rfl⟩ := hexists
    exact ⟨(p.2, p.1), h.mem_turned.1 hp, rfl⟩
  · intro hexists
    obtain ⟨p, hp, rfl⟩ := hexists
    exact ⟨(p.2, p.1), h.mem_turned.2 hp, rfl⟩

/-- Tables in step with the same pairs, in whatever order they came, are the same. -/
theorem eq_of_perm (h : m.Mirrored) (h' : m'.Mirrored) (hp : m.pairs.Perm m'.pairs) : m = m' := by
  have hpairs : m.pairs = m'.pairs := eq_of_perm_of_increasing h.sorted h'.sorted hp
  have hturned : m.turned.Perm m'.turned :=
    h.turned_perm.trans ((hp.map Prod.swap).trans h'.turned_perm.symm)
  obtain ⟨pairs, turned⟩ := m
  obtain ⟨pairs', turned'⟩ := m'
  cases hpairs
  cases eq_of_perm_of_increasing h.sortedTurned h'.sortedTurned hturned
  rfl

end PairTables.Mirrored

/-! ## 2. Correspondences -/

namespace Correspondence

variable {m m' : Correspondence} {s d : Nat}

theorem sorted (m : Correspondence) : m.pairs.Pairwise fun p q => p.1 < q.1 := m.mirrored.sorted

theorem injective (m : Correspondence) : m.pairs.Pairwise fun p q => p.2 ≠ q.2 :=
  m.mirrored.distinct_snd

/-- The first halves of two pairs are equal only if the pairs are. -/
theorem eq_of_fst_eq (m : Correspondence) {p q : Nat × Nat} (hp : p ∈ m.pairs) (hq : q ∈ m.pairs)
    (h : p.1 = q.1) : p = q :=
  eq_of_key_eq m.mirrored.distinct_fst hp hq h

theorem dst?_eq_some_iff : m.dst? s = some d ↔ (s, d) ∈ m.pairs := m.mirrored.dst?_eq_some_iff

theorem src?_eq_some_iff : m.src? d = some s ↔ (s, d) ∈ m.pairs := m.mirrored.src?_eq_some_iff

/-- Correspondences with the same pairs, in whatever order they came, are the same. -/
theorem eq_of_perm (h : m.pairs.Perm m'.pairs) : m = m' := by
  have htables := m.mirrored.eq_of_perm m'.mirrored h
  obtain ⟨tables, mirrored⟩ := m
  obtain ⟨tables', mirrored'⟩ := m'
  cases htables
  rfl

/-- The correspondence of the first `n` nodes, each with itself. -/
def diagonal (n : Nat) : Correspondence where
  pairs := (List.range n).map fun i => (i, i)
  turned := (List.range n).map fun i => (i, i)
  mirrored := by
    have hsorted : ((List.range n).map fun i => (i, i)).Pairwise fun p q => p.1 < q.1 :=
      List.pairwise_map.2 List.pairwise_lt_range
    refine ⟨hsorted, hsorted, ?_⟩
    rw [List.map_map]
    exact .refl _

/-! ## 3. Insertion -/

/-- An insertion fits when it fits the tables. -/
theorem insert_eq_ok_iff : m.insert s d = .ok m' ↔
    (PairTables.insert s d).run m.toPairTables = .ok () m'.toPairTables := by
  unfold insert
  split
  · rename_i tables h
    constructor
    · intro heq
      cases heq
      exact h
    · intro heq
      obtain ⟨tables', mirrored'⟩ := m'
      cases h.symm.trans heq
      rfl
  · rename_i e tables h
    constructor
    · intro heq
      cases heq
    · intro heq
      cases h.symm.trans heq

/-- An insertion is refused for the reason for which the tables refuse it. -/
theorem insert_eq_error {e : MappingError} {tables : PairTables}
    (h : (PairTables.insert s d).run m.toPairTables = .error e tables) :
    m.insert s d = .error e := by
  unfold insert
  split
  · rename_i h'
    rw [h] at h'
    cases h'
  · rename_i h'
    rw [h] at h'
    cases h'
    rfl

/-- An insertion that fits adds exactly one pair. -/
theorem pairs_insert (h : m.insert s d = .ok m') : m'.pairs = insertPair s d m.pairs := by
  have hrun := insert_eq_ok_iff.1 h
  rw [PairTables.run_insert] at hrun
  split at hrun
  · cases hrun
  · split at hrun
    · cases hrun
    · injection hrun with _ htables
      rw [← htables]

/-- A pair that is inserted moves from the pairs to come to the pairs that are there. -/
theorem perm_of_insert (h : m.insert s d = .ok m') (ps : List (Nat × Nat)) :
    (ps ++ m'.pairs).Perm ((s, d) :: (ps ++ m.pairs)) := by
  rw [pairs_insert h]
  exact ((insertPair_perm s d m.pairs).append_left ps).trans List.perm_middle

/-- A pair of nodes that are both free fits. -/
theorem insert_of_fresh (hs : ∀ p ∈ m.pairs, p.1 ≠ s) (hd : ∀ p ∈ m.pairs, p.2 ≠ d) :
    ∃ m', m.insert s d = .ok m' := by
  have hs' : ¬ m.pairs.any (·.1 == s) = true := fun h =>
    let ⟨p, hp, he⟩ := any_fst_iff.1 h
    hs p hp he
  have hd' : ¬ m.turned.any (·.1 == d) = true := fun h =>
    let ⟨p, hp, he⟩ := m.mirrored.exists_turned_iff.1 (any_fst_iff.1 h)
    hd p hp he
  have hrun : (PairTables.insert s d).run m.toPairTables =
      .ok () ⟨insertPair s d m.pairs, insertPair d s m.turned⟩ := by
    rw [PairTables.run_insert, if_neg hs', if_neg hd']
  exact ⟨⟨_, m.mirrored.insert hrun⟩, insert_eq_ok_iff.2 hrun⟩

theorem insert_of_source_mapped (h : ∃ p ∈ m.pairs, p.1 = s) (d : Nat) :
    m.insert s d = .error (.sourceMapped s) := by
  have hrun : (PairTables.insert s d).run m.toPairTables =
      .error (.sourceMapped s) m.toPairTables := by
    rw [PairTables.run_insert, if_pos (any_fst_iff.2 h)]
  exact insert_eq_error hrun

/-- The later node is looked at only when the earlier is free. -/
theorem insert_of_destination_mapped (hs : ∀ p ∈ m.pairs, p.1 ≠ s) (h : ∃ p ∈ m.pairs, p.2 = d) :
    m.insert s d = .error (.destinationMapped d) := by
  have hs' : ¬ m.pairs.any (·.1 == s) = true := fun h =>
    let ⟨p, hp, he⟩ := any_fst_iff.1 h
    hs p hp he
  have hd : m.turned.any (·.1 == d) = true :=
    any_fst_iff.2 (m.mirrored.exists_turned_iff.2 h)
  have hrun : (PairTables.insert s d).run m.toPairTables =
      .error (.destinationMapped d) m.toPairTables := by
    rw [PairTables.run_insert, if_neg hs', if_pos hd]
  exact insert_eq_error hrun

/-! ## 4. Lists of pairs -/

theorem insertAll_cons_eq_ok {ps : List (Nat × Nat)} :
    m.insertAll ((s, d) :: ps) = .ok m' ↔
      ∃ m₁, m.insert s d = .ok m₁ ∧ m₁.insertAll ps = .ok m' := by
  rw [insertAll]
  cases m.insert s d with
  | error e => simp
  | ok m₁ => simp

/-- What is collected is what was there, with the pairs of the list. -/
theorem perm_of_insertAll {ps : List (Nat × Nat)} (h : m.insertAll ps = .ok m') :
    m'.pairs.Perm (ps ++ m.pairs) := by
  induction ps generalizing m with
  | nil =>
    cases h
    exact .refl _
  | cons p ps ih =>
    obtain ⟨m₁, hm₁, h⟩ := insertAll_cons_eq_ok.1 h
    exact (ih h).trans (perm_of_insert hm₁ ps)

/-- Pairs in which no node is named twice are all collected. -/
theorem exists_insertAll {ps : List (Nat × Nat)}
    (hfst : (ps ++ m.pairs).Pairwise fun p q => p.1 ≠ q.1)
    (hsnd : (ps ++ m.pairs).Pairwise fun p q => p.2 ≠ q.2) : ∃ m', m.insertAll ps = .ok m' := by
  induction ps generalizing m with
  | nil => exact ⟨m, rfl⟩
  | cons p ps ih =>
    obtain ⟨s, d⟩ := p
    rw [List.cons_append, List.pairwise_cons] at hfst hsnd
    obtain ⟨m₁, hm₁⟩ := insert_of_fresh (m := m) (s := s) (d := d)
      (fun q hq => (hfst.1 q (List.mem_append_right _ hq)).symm)
      (fun q hq => (hsnd.1 q (List.mem_append_right _ hq)).symm)
    have hperm := perm_of_insert hm₁ ps
    obtain ⟨m', hm'⟩ := ih ((List.pairwise_cons.2 hfst).perm hperm.symm fun h => h.symm)
      ((List.pairwise_cons.2 hsnd).perm hperm.symm fun h => h.symm)
    exact ⟨m', insertAll_cons_eq_ok.2 ⟨m₁, hm₁, hm'⟩⟩

/-- From the start, what is collected is the list. -/
theorem perm_of_ofPairs {ps : List (Nat × Nat)} (h : ofPairs ps = .ok m) : m.pairs.Perm ps := by
  have hperm := perm_of_insertAll h
  rwa [show ps ++ empty.pairs = ps from List.append_nil ps] at hperm

theorem exists_ofPairs {ps : List (Nat × Nat)} (hfst : ps.Pairwise fun p q => p.1 ≠ q.1)
    (hsnd : ps.Pairwise fun p q => p.2 ≠ q.2) : ∃ m, ofPairs ps = .ok m := by
  have hnil : ps ++ empty.pairs = ps := List.append_nil ps
  exact exists_insertAll (hnil.symm ▸ hfst) (hnil.symm ▸ hsnd)

end Correspondence

end Recast
