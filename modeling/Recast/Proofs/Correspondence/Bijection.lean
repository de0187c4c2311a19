import Mathlib.Data.Set.Card
import Recast.Proofs.Correspondence
import Recast.Proofs.Fault

/-!
# A correspondence is a partial bijection

The two tables of a correspondence are written one after the other, so that they could come apart.
They do not: whatever pairs are offered, the tables that are left behind say the same from either
side, also after pairs that were refused.

* `PairTables.offerAll`: the tables after a sequence of insertions, of which any may be refused;
* `PairTables.Bijective`: lookups in the two tables undo each other, and the first table lists what
  they find;
* `PairTables.Mirrored.offerAll`: **whatever is offered, the tables stay in step**;
* `Correspondence.FirstRepeat`: the first pair of a list with a node that was named before, and the
  error that says so;
* `correspondence_bijective`: **any history of insertions leaves a partial bijection, and a list of
  pairs is collected exactly when no node is named twice, in whatever order.**
-/

namespace Recast

/-! ## 1. Histories -/

namespace PairTables

variable {m m' : PairTables} {s d : Nat}

/-- The tables that an insertion leaves behind, whether it fits or is refused. -/
def offer (m : PairTables) (p : Nat × Nat) : PairTables :=
  match (insert p.1 p.2).run m with
  | .ok () m' => m'
  | .error _ m' => m'

/-- The tables after insertions one after the other. -/
def offerAll (m : PairTables) (ps : List (Nat × Nat)) : PairTables := ps.foldl offer m

example : (empty.offerAll [(3, 1), (3, 2), (2, 1), (0, 5)]).pairs = [(0, 5), (3, 1)] := by decide

/-- An insertion that is refused writes to neither table. -/
theorem eq_of_run_insert_error {e : MappingError} (h : (insert s d).run m = .error e m') :
    m' = m := by
  rw [run_insert] at h
  split at h
  · cases h
    rfl
  · split at h
    · cases h
      rfl
    · cases h

/-- An insertion that fits adds its pair and nothing else. -/
theorem mem_pairs_of_run_insert (h : (insert s d).run m = .ok () m') {p : Nat × Nat} :
    p ∈ m'.pairs ↔ p = (s, d) ∨ p ∈ m.pairs := by
  rw [run_insert] at h
  split at h
  · cases h
  · split at h
    · cases h
    · cases h
      exact mem_insertPair

/-- **One step**: whatever is offered, the tables stay in step. -/
theorem Mirrored.offer (h : m.Mirrored) (p : Nat × Nat) : (m.offer p).Mirrored := by
  unfold PairTables.offer
  split
  · rename_i m' hrun
    exact h.insert hrun
  · rename_i e m' hrun
    rw [eq_of_run_insert_error hrun]
    exact h

/-- **A whole history keeps the tables in step.** -/
theorem Mirrored.offerAll (h : m.Mirrored) (ps : List (Nat × Nat)) : (m.offerAll ps).Mirrored := by
  induction ps generalizing m with
  | nil => exact h
  | cons p ps ih => exact ih (h.offer p)

/-! ## 2. Bijections -/

/-- The two tables undo each other, and the pairs are what they find: each listed once, in
    increasing order of the earlier node. -/
structure Bijective (m : PairTables) : Prop where
  inverse : ∀ s d, m.dst? s = some d ↔ m.src? d = some s
  size_eq : m.size = {p : Nat × Nat | m.dst? p.1 = some p.2}.ncard
  mem_pairs : ∀ s d, (s, d) ∈ m.pairs ↔ m.dst? s = some d
  increasing : m.pairs.Pairwise fun p q => p.1 < q.1

theorem Mirrored.bijective (h : m.Mirrored) : m.Bijective where
  inverse s d := by rw [h.dst?_eq_some_iff, h.src?_eq_some_iff]
  size_eq := by
    have hnodup : m.pairs.Nodup := h.distinct_fst.imp fun hne he => hne (congrArg Prod.fst he)
    have hset : {p : Nat × Nat | m.dst? p.1 = some p.2} = m.pairs.toFinset := by
      ext p
      rw [Set.mem_ofPred_eq, h.dst?_eq_some_iff, List.coe_toFinset, Set.mem_ofPred_eq]
    rw [hset, Set.ncard_coe_finset, List.toFinset_card_of_nodup hnodup, size]
  mem_pairs _ _ := h.dst?_eq_some_iff.symm
  increasing := h.sorted

end PairTables

/-! ## 3. Lists of pairs -/

namespace Correspondence

variable {m : Correspondence} {ps : List (Nat × Nat)}

/-- No node is named twice, on either side. -/
structure Distinct (ps : List (Nat × Nat)) : Prop where
  sources : (ps.map (·.1)).Nodup
  destinations : (ps.map (·.2)).Nodup

/-- A pair names a node that was named before; the earlier node is looked at first. -/
inductive Repeats (done : List (Nat × Nat)) (p : Nat × Nat) : MappingError → Prop where
  | source (h : p.1 ∈ done.map (·.1)) : Repeats done p (.sourceMapped p.1)
  | destination (hfree : p.1 ∉ done.map (·.1)) (h : p.2 ∈ done.map (·.2)) :
    Repeats done p (.destinationMapped p.2)

/-- The first pair that names a node again, with what is wrong with it. -/
def FirstRepeat (ps : List (Nat × Nat)) (e : MappingError) : Prop :=
  ∃ done p todo, ps = done ++ p :: todo ∧ Distinct done ∧ Repeats done p e

theorem distinct_nil : Distinct [] := ⟨List.nodup_nil, List.nodup_nil⟩

theorem Distinct.perm {qs : List (Nat × Nat)} (h : Distinct ps) (hp : ps.Perm qs) : Distinct qs :=
  ⟨(hp.map _).nodup h.sources, (hp.map _).nodup h.destinations⟩

/-- The pairs of a correspondence are distinct. -/
theorem distinct_pairs (m : Correspondence) : Distinct m.pairs :=
  ⟨List.pairwise_map.2 m.mirrored.distinct_fst, List.pairwise_map.2 m.injective⟩

theorem Distinct.exists_ofPairs (h : Distinct ps) : ∃ m, ofPairs ps = .ok m :=
  Correspondence.exists_ofPairs (List.pairwise_map.1 h.sources) (List.pairwise_map.1 h.destinations)

/-- A pair that names no node again may be added. -/
theorem Distinct.concat {p : Nat × Nat} (h : Distinct ps) (hs : p.1 ∉ ps.map (·.1))
    (hd : p.2 ∉ ps.map (·.2)) : Distinct (ps ++ [p]) := by
  constructor
  · rw [List.map_append, List.map_singleton, ← List.concat_eq_append, List.nodup_concat]
    exact ⟨hs, h.sources⟩
  · rw [List.map_append, List.map_singleton, ← List.concat_eq_append, List.nodup_concat]
    exact ⟨hd, h.destinations⟩

/-- No node is named twice, or there is a first pair that names one again. -/
theorem distinct_or_firstRepeat (ps : List (Nat × Nat)) :
    Distinct ps ∨ ∃ e, FirstRepeat ps e := by
  rcases fits_or_first Distinct distinct_nil ps with h | ⟨done, p, todo, hps, hdone, hp⟩
  · exact .inl h
  · by_cases hs : p.1 ∈ done.map (·.1)
    · exact .inr ⟨_, done, p, todo, hps, hdone, .source hs⟩
    · by_cases hd : p.2 ∈ done.map (·.2)
      · exact .inr ⟨_, done, p, todo, hps, hdone, .destination hs hd⟩
      · exact absurd (hdone.concat hs hd) hp

theorem insertAll_append (m : Correspondence) (ps qs : List (Nat × Nat)) :
    m.insertAll (ps ++ qs) = m.insertAll ps >>= fun m' => m'.insertAll qs := by
  induction ps generalizing m with
  | nil => rfl
  | cons p ps ih =>
    obtain ⟨s, d⟩ := p
    rw [List.cons_append, insertAll, insertAll]
    cases m.insert s d with
    | error e => rfl
    | ok m₁ => exact ih m₁

/-- **One step**: a pair that names a node again is refused with the error that says so. -/
theorem insert_of_repeats {done : List (Nat × Nat)} (hm : m.pairs.Perm done) {p : Nat × Nat}
    {e : MappingError} (h : Repeats done p e) : m.insert p.1 p.2 = .error e := by
  have hnamed (f : Nat × Nat → Nat) (n : Nat) : n ∈ done.map f ↔ ∃ q ∈ m.pairs, f q = n := by
    rw [← (hm.map f).mem_iff, List.mem_map]
  cases h with
  | source hs => exact insert_of_source_mapped ((hnamed _ _).1 hs) p.2
  | destination hfree hd =>
    refine insert_of_destination_mapped (fun q hq he => hfree ?_) ((hnamed _ _).1 hd)
    exact (hnamed _ _).2 ⟨q, hq, he⟩

/-- The first pair that names a node again ends the collection. -/
theorem ofPairs_of_firstRepeat {e : MappingError} (h : FirstRepeat ps e) :
    ofPairs ps = .error e := by
  obtain ⟨done, ⟨s, d⟩, todo, rfl, hdone, hp⟩ := h
  obtain ⟨m, hm⟩ := hdone.exists_ofPairs
  have hrefused : m.insert s d = .error e := insert_of_repeats (perm_of_ofPairs hm) hp
  rw [ofPairs, insertAll_append, show empty.insertAll done = .ok m from hm]
  show m.insertAll ((s, d) :: todo) = .error e
  rw [insertAll, hrefused]

/-- What is collected from a list is collected from its permutations. -/
theorem ofPairs_perm {qs : List (Nat × Nat)} (h : ofPairs ps = .ok m) (hp : ps.Perm qs) :
    ofPairs qs = .ok m := by
  have hperm := perm_of_ofPairs h
  obtain ⟨m', hm'⟩ := ((m.distinct_pairs.perm hperm).perm hp).exists_ofPairs
  rwa [eq_of_perm (hperm.trans (hp.trans (perm_of_ofPairs hm').symm))]

end Correspondence

/-- **Any history of insertions leaves a partial bijection; one that is refused changes nothing, and
    one that fits adds its pair. A list of pairs is collected exactly when no node is named twice,
    in whatever order, and otherwise the error is about the first pair that names one again.** -/
theorem correspondence_bijective (history ps : List (Nat × Nat)) :
    (let m := PairTables.empty.offerAll history
     m.Bijective ∧ (∀ s d e m', (PairTables.insert s d).run m = .error e m' → m' = m) ∧
      ∀ s d m', (PairTables.insert s d).run m = .ok () m' →
        ∀ p, p ∈ m'.pairs ↔ p = (s, d) ∨ p ∈ m.pairs) ∧
      ((∃ m, Correspondence.ofPairs ps = .ok m) ↔ Correspondence.Distinct ps) ∧
      (∀ m, Correspondence.ofPairs ps = .ok m → m.pairs.Perm ps ∧ m.Bijective ∧
        ∀ qs, ps.Perm qs → Correspondence.ofPairs qs = .ok m) ∧
      ∀ e, Correspondence.ofPairs ps = .error e ↔ Correspondence.FirstRepeat ps e := by
  have hmirrored := PairTables.Mirrored.empty.offerAll history
  have hsettled := settled Correspondence.Distinct.exists_ofPairs
    (fun _ => Correspondence.ofPairs_of_firstRepeat) (Correspondence.distinct_or_firstRepeat ps)
  refine ⟨⟨hmirrored.bijective, ?_, ?_⟩, hsettled.1, fun m hm => ⟨?_, ?_, ?_⟩, hsettled.2⟩
  · intro s d e m' h
    exact PairTables.eq_of_run_insert_error h
  · intro s d m' h p
    exact PairTables.mem_pairs_of_run_insert h
  · exact Correspondence.perm_of_ofPairs hm
  · exact m.mirrored.bijective
  · intro qs hp
    exact Correspondence.ofPairs_perm hm hp

end Recast
