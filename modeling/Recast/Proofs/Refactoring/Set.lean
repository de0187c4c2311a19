import Recast.Proofs.Keyed
import Recast.Refactoring.Set

/-!
# What a set of refactorings holds

* `mem_of_mem_extend`: a record of an extended set was in the set or among the records added;
* `mem_descriptions_extend`: the descriptions are those of both, nothing is lost;
* `descriptions_eq`: **sets with the same descriptions list them alike**;
* `find?_extend`: of the records with one description the first counts;
* `eq_of_find?_eq`: **a set is what it answers when it is asked for a description.**
-/

namespace Recast.Refactorings

/-! ## 1. Records -/

theorem mem_of_mem_extend {s : Refactorings} {rs : List Refactoring} {q : Refactoring}
    (h : q ∈ (s.extend rs).records) : q ∈ s.records ∨ q ∈ rs := by
  induction rs generalizing s with
  | nil => exact .inl h
  | cons r rs ih =>
    rcases ih h with h' | h'
    · rcases mem_insertRecord h' with rfl | h'
      · exact .inr List.mem_cons_self
      · exact .inl h'
    · exact .inr (List.mem_cons_of_mem _ h')

theorem mem_of_mem_ofList {rs : List Refactoring} {q : Refactoring}
    (h : q ∈ (ofList rs).records) : q ∈ rs := by
  rcases mem_of_mem_extend h with h' | h'
  · exact absurd h' List.not_mem_nil
  · exact h'

/-! ## 2. Descriptions -/

/-- Inserting a record makes its description present and keeps the others. -/
theorem mem_descriptions_insertRecord (r : Refactoring) (rs : List Refactoring) (x : String) :
    x ∈ (insertRecord r rs).map (·.description) ↔
      x = r.description ∨ x ∈ rs.map (·.description) := by
  induction rs with
  | nil => simp [insertRecord]
  | cons q qs ih =>
    rw [insertRecord]
    split
    · rw [List.map_cons, List.mem_cons]
    · split
      · rename_i heq
        rw [heq, List.map_cons, List.mem_cons, ← or_assoc, or_self]
      · rw [List.map_cons, List.mem_cons, ih, List.map_cons, List.mem_cons]
        exact or_left_comm

theorem mem_descriptions_extend (s : Refactorings) (rs : List Refactoring) (x : String) :
    x ∈ (s.extend rs).descriptions ↔ x ∈ s.descriptions ∨ x ∈ rs.map (·.description) := by
  induction rs generalizing s with
  | nil => simp [extend]
  | cons r rs ih =>
    show x ∈ ((s.insert r).extend rs).descriptions ↔ _
    rw [ih, descriptions, insert, mem_descriptions_insertRecord, List.map_cons, List.mem_cons,
      descriptions, or_assoc, or_left_comm]

theorem mem_descriptions_ofList (rs : List Refactoring) (x : String) :
    x ∈ (ofList rs).descriptions ↔ x ∈ rs.map (·.description) := by
  have hempty : empty.descriptions = [] := rfl
  rw [ofList, mem_descriptions_extend, hempty]
  exact ⟨fun h => h.resolve_left List.not_mem_nil, .inr⟩

/-- **Sets with the same descriptions list them alike**, whatever the records. -/
theorem descriptions_eq {s t : Refactorings} (h : ∀ x, x ∈ s.descriptions ↔ x ∈ t.descriptions) :
    s.descriptions = t.descriptions := by
  have sorted (u : Refactorings) : u.descriptions.Pairwise (· < ·) := List.pairwise_map.2 u.ordered
  exact eq_of_mem_iff_of_sorted (sorted s) (sorted t) h

/-! ## 3. Looking a description up -/

/-- The record with a given description in a list. -/
def recordOf? (x : String) (rs : List Refactoring) : Option Refactoring :=
  rs.find? fun r => r.description == x

theorem recordOf?_cons (x : String) (r : Refactoring) (rs : List Refactoring) :
    recordOf? x (r :: rs) = if r.description = x then some r else recordOf? x rs := by
  unfold recordOf?
  by_cases h : r.description = x
  · rw [List.find?_cons_of_pos (by simpa using h), if_pos h]
  · rw [List.find?_cons_of_neg (by simpa using h), if_neg h]

/-- Nothing stands before the first record. -/
theorem recordOf?_of_lt {x : String} {q : Refactoring} {qs : List Refactoring}
    (h : Ordered (q :: qs)) (hx : x < q.description) : recordOf? x (q :: qs) = none := by
  refine List.find?_eq_none.2 fun r hr => ?_
  have hlt : x < r.description := by
    rcases List.mem_cons.1 hr with rfl | hr
    · exact hx
    · exact String.lt_trans hx ((List.pairwise_cons.1 h).1 r hr)
  intro he
  rw [beq_iff_eq.1 he] at hlt
  exact String.lt_irrefl _ hlt

/-- An insertion answers for the description of its record, unless it is answered already. -/
theorem recordOf?_insertRecord {rs : List Refactoring} (h : Ordered rs) (r : Refactoring)
    (x : String) : recordOf? x (insertRecord r rs) = (recordOf? x rs).or (recordOf? x [r]) := by
  induction rs with
  | nil => rfl
  | cons q qs ih =>
    rw [insertRecord, recordOf?_cons x r []]
    split
    · rename_i hlt
      rw [recordOf?_cons]
      by_cases hx : r.description = x
      · rw [if_pos hx, if_pos hx, recordOf?_of_lt h (hx ▸ hlt)]
        rfl
      · rw [if_neg hx, if_neg hx]
        exact (Option.or_none ..).symm
    · split
      · rename_i heq
        rw [recordOf?_cons, heq]
        by_cases hx : q.description = x
        · rw [if_pos hx]
          rfl
        · rw [if_neg hx, if_neg hx]
          exact (Option.or_none ..).symm
      · rw [recordOf?_cons, recordOf?_cons x q qs, ih (List.pairwise_cons.1 h).2,
          recordOf?_cons x r []]
        by_cases hx : q.description = x
        · rw [if_pos hx, if_pos hx]
          rfl
        · rw [if_neg hx, if_neg hx]

/-- **Of the records with one description the first counts.** -/
theorem find?_extend (s : Refactorings) (rs : List Refactoring) (x : String) :
    (s.extend rs).find? x = (s.find? x).or (recordOf? x rs) := by
  induction rs generalizing s with
  | nil => exact (Option.or_none ..).symm
  | cons r rs ih =>
    have hinsert : (s.insert r).find? x = (s.find? x).or (recordOf? x [r]) :=
      recordOf?_insertRecord s.ordered r x
    show ((s.insert r).extend rs).find? x = _
    rw [ih, hinsert, Option.or_assoc, recordOf?_cons, recordOf?_cons]
    by_cases hx : r.description = x
    · rw [if_pos hx, if_pos hx]
      rfl
    · rw [if_neg hx, if_neg hx]
      rfl

theorem find?_eq_some_iff {s : Refactorings} {x : String} {r : Refactoring} :
    s.find? x = some r ↔ r ∈ s.records ∧ r.description = x :=
  find?_key_eq_some_iff (s.ordered.imp String.ne_of_lt)

theorem mem_descriptions_iff {s : Refactorings} {x : String} :
    x ∈ s.descriptions ↔ ∃ r, s.find? x = some r := by
  rw [descriptions, List.mem_map]
  simp only [find?_eq_some_iff]

/-- **A set is what it answers when it is asked for a description.** -/
theorem eq_of_find?_eq {s t : Refactorings} (h : ∀ x, s.find? x = t.find? x) : s = t := by
  have hmem (r : Refactoring) : r ∈ s.records ↔ r ∈ t.records := by
    have hfind := h r.description
    constructor
    · intro hr
      exact (find?_eq_some_iff.1 (hfind ▸ find?_eq_some_iff.2 ⟨hr, rfl⟩)).1
    · intro hr
      exact (find?_eq_some_iff.1 (hfind ▸ find?_eq_some_iff.2 ⟨hr, rfl⟩)).1
  have hrecords : s.records = t.records :=
    eq_of_mem_iff_of_sorted s.ordered t.ordered hmem
  obtain ⟨records, ordered⟩ := s
  obtain ⟨records', ordered'⟩ := t
  cases hrecords
  rfl

/-- The set of the records of a set is that set. -/
theorem ofList_records (s : Refactorings) : ofList s.records = s := by
  refine eq_of_find?_eq fun x => ?_
  rw [ofList, find?_extend]
  rfl

end Recast.Refactorings
