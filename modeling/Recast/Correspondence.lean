/-!
# Correspondences

A correspondence pairs nodes of an earlier tree with nodes of a later one so that no node is in two
pairs. The pairs are kept twice, in increasing order of the earlier node and, turned round, in
increasing order of the later one: a counterpart is found from either side, and whatever is derived
from a correspondence does not depend on the order in which the pairs came.

* `PairTables`: the two tables. `PairTables.insert` looks both nodes up, the earlier first, and
  then writes to one table after the other; `dst?` and `src?` look a counterpart up;
* `PairTables.Mirrored`: the tables are in order and hold the same pairs;
* `Correspondence`: tables that do. `insert` adds a pair, or says which side is taken;
* `ofPairs` collects a list and stops at the first pair that does not fit.
-/

namespace Recast

/-- Why a pair does not fit. -/
inductive MappingError where
  | sourceMapped (node : Nat)
  | destinationMapped (node : Nat)
deriving DecidableEq, Repr

/-- The wording of a mapping error. -/
def MappingError.message : MappingError → String
  | .sourceMapped node => s!"source node #{node} is already mapped"
  | .destinationMapped node => s!"destination node #{node} is already mapped"

/-! ## 1. Lists of pairs -/

/-- Puts a pair in its place in a list ordered by first component. -/
def insertPair (s d : Nat) : List (Nat × Nat) → List (Nat × Nat)
  | [] => [(s, d)]
  | p :: ps => if s < p.1 then (s, d) :: p :: ps else p :: insertPair s d ps

theorem mem_insertPair {s d : Nat} {ps : List (Nat × Nat)} {q : Nat × Nat} :
    q ∈ insertPair s d ps ↔ q = (s, d) ∨ q ∈ ps := by
  induction ps with
  | nil => simp [insertPair]
  | cons p ps ih =>
    rw [insertPair]
    split
    · simp
    · simp only [List.mem_cons, ih]
      exact or_left_comm

theorem insertPair_sorted {s d : Nat} {ps : List (Nat × Nat)}
    (h : ps.Pairwise fun p q => p.1 < q.1) (hs : ∀ p ∈ ps, p.1 ≠ s) :
    (insertPair s d ps).Pairwise fun p q => p.1 < q.1 := by
  induction ps with
  | nil => simp [insertPair]
  | cons p ps ih =>
    rw [List.pairwise_cons] at h
    rw [insertPair]
    split
    · rename_i hlt
      refine List.pairwise_cons.2 ⟨fun q hq => ?_, List.pairwise_cons.2 h⟩
      rcases List.mem_cons.1 hq with rfl | hq
      · exact hlt
      · exact Nat.lt_trans hlt (h.1 q hq)
    · rename_i hge
      refine List.pairwise_cons.2 ⟨fun q hq => ?_, ih h.2 fun q hq => hs q (by simp [hq])⟩
      rcases mem_insertPair.1 hq with rfl | hq
      · have := hs p (by simp)
        omega
      · exact h.1 q hq

theorem insertPair_perm (s d : Nat) (ps : List (Nat × Nat)) :
    (insertPair s d ps).Perm ((s, d) :: ps) := by
  induction ps with
  | nil => exact .refl _
  | cons p ps ih =>
    rw [insertPair]
    split
    · exact .refl _
    · exact (ih.cons p).trans (.swap _ _ _)

theorem any_fst_iff {ps : List (Nat × Nat)} {s : Nat} :
    ps.any (·.1 == s) = true ↔ ∃ p ∈ ps, p.1 = s := by
  simp only [List.any_eq_true, beq_iff_eq]

/-! ## 2. Two tables -/

/-- The pairs of a correspondence, once under the earlier and once under the later node. -/
structure PairTables where
  pairs : List (Nat × Nat)
  /-- The same pairs turned round. -/
  turned : List (Nat × Nat)
deriving DecidableEq

namespace PairTables

/-- Tables without entries. -/
def empty : PairTables := ⟨[], []⟩

/-- The later counterpart of an earlier node. -/
def dst? (m : PairTables) (s : Nat) : Option Nat := (m.pairs.find? (·.1 == s)).map (·.2)

/-- The earlier counterpart of a later node. -/
def src? (m : PairTables) (d : Nat) : Option Nat := (m.turned.find? (·.1 == d)).map (·.2)

/-- The number of pairs. -/
def size (m : PairTables) : Nat := m.pairs.length

/-- Adds a pair to both tables, unless one of its nodes is in a pair already. -/
def insert (s d : Nat) : EStateM MappingError PairTables Unit := do
  if (← get).pairs.any (·.1 == s) then throw (.sourceMapped s)
  if (← get).turned.any (·.1 == d) then throw (.destinationMapped d)
  modify fun m => { m with pairs := insertPair s d m.pairs }
  modify fun m => { m with turned := insertPair d s m.turned }

/-- The three ways an insertion can go. -/
theorem run_insert (m : PairTables) (s d : Nat) :
    (insert s d).run m =
      if m.pairs.any (·.1 == s) then .error (.sourceMapped s) m
      else if m.turned.any (·.1 == d) then .error (.destinationMapped d) m
      else .ok () ⟨insertPair s d m.pairs, insertPair d s m.turned⟩ := by
  unfold insert
  rw [EStateM.run_bind, EStateM.run_get]
  dsimp only
  split
  · rfl
  · -- the earlier node is free, and nothing has been written yet
    rw [EStateM.run_bind, EStateM.run_get]
    dsimp only
    split
    · rfl
    · rfl

/-- The tables are in increasing order of their keys, and the second is the first turned round. -/
structure Mirrored (m : PairTables) : Prop where
  sorted : m.pairs.Pairwise fun p q => p.1 < q.1
  sortedTurned : m.turned.Pairwise fun p q => p.1 < q.1
  turned_perm : m.turned.Perm (m.pairs.map Prod.swap)

theorem Mirrored.empty : PairTables.empty.Mirrored := ⟨.nil, .nil, .refl _⟩

/-- **One step**: an insertion that fits keeps the tables in step. -/
theorem Mirrored.insert {m m' : PairTables} (h : m.Mirrored) {s d : Nat}
    (hrun : (PairTables.insert s d).run m = .ok () m') : m'.Mirrored := by
  rw [run_insert] at hrun
  split at hrun
  · cases hrun
  · rename_i hs
    split at hrun
    · cases hrun
    · rename_i hd
      cases hrun
      refine ⟨insertPair_sorted h.sorted fun p hp he => hs (any_fst_iff.2 ⟨p, hp, he⟩),
        insertPair_sorted h.sortedTurned fun p hp he => hd (any_fst_iff.2 ⟨p, hp, he⟩), ?_⟩
      have hmap := (insertPair_perm s d m.pairs).map Prod.swap
      exact (insertPair_perm d s m.turned).trans ((h.turned_perm.cons (d, s)).trans hmap.symm)

end PairTables

/-! ## 3. Correspondences -/

/-- Pairs of nodes of two trees in which no node occurs twice. -/
structure Correspondence extends PairTables where
  mirrored : toPairTables.Mirrored
deriving DecidableEq

namespace Correspondence

/-- The correspondence without pairs. -/
def empty : Correspondence := ⟨.empty, .empty⟩

/-- Adds a pair. -/
def insert (m : Correspondence) (s d : Nat) : Except MappingError Correspondence :=
  match h : (PairTables.insert s d).run m.toPairTables with
  | .ok () tables => .ok ⟨tables, m.mirrored.insert h⟩
  | .error e _ => .error e

/-- Adds pairs one after the other and stops at the first that does not fit. -/
def insertAll (m : Correspondence) : List (Nat × Nat) → Except MappingError Correspondence
  | [] => .ok m
  | (s, d) :: ps =>
    match m.insert s d with
    | .ok m' => m'.insertAll ps
    | .error e => .error e

/-- The correspondence made of the given pairs. -/
def ofPairs (ps : List (Nat × Nat)) : Except MappingError Correspondence := empty.insertAll ps

end Correspondence

end Recast
