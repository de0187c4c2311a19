import Recast.Refactoring.Basic

/-!
# Sets of refactorings

A set holds one record for each description, in the order of the descriptions by code point. The
record that came first stays.
-/

namespace Recast

/-- Puts a record in its place in a list ordered by description, unless that description is there
    already. -/
def insertRecord (r : Refactoring) : List Refactoring → List Refactoring
  | [] => [r]
  | q :: qs =>
    if r.description < q.description then r :: q :: qs
    else if r.description = q.description then q :: qs
    else q :: insertRecord r qs

theorem mem_insertRecord {r q : Refactoring} {rs : List Refactoring}
    (h : q ∈ insertRecord r rs) : q = r ∨ q ∈ rs := by
  induction rs with
  | nil => simpa [insertRecord] using h
  | cons p ps ih =>
    rw [insertRecord] at h
    split at h
    · simpa using h
    · split at h
      · exact .inr h
      · rcases List.mem_cons.1 h with rfl | h
        · simp
        · rcases ih h with rfl | h <;> simp_all

/-- Records ordered strictly by description. -/
def Ordered (rs : List Refactoring) : Prop :=
  rs.Pairwise fun a b => a.description < b.description

theorem Ordered.insertRecord {rs : List Refactoring} (h : Ordered rs) (r : Refactoring) :
    Ordered (insertRecord r rs) := by
  induction rs with
  | nil => simp [Recast.insertRecord, Ordered]
  | cons q qs ih =>
    obtain ⟨hq, hqs⟩ := List.pairwise_cons.1 h
    rw [Recast.insertRecord]
    split
    · rename_i hlt
      refine List.pairwise_cons.2 ⟨fun p hp => ?_, h⟩
      rcases List.mem_cons.1 hp with rfl | hp
      · exact hlt
      · exact String.lt_trans hlt (hq p hp)
    · split
      · exact h
      · rename_i hnlt hne
        refine List.pairwise_cons.2 ⟨fun p hp => ?_, ih hqs⟩
        rcases mem_insertRecord hp with rfl | hp
        · rcases String.le_total p.description q.description with hle | hle
          · exact absurd (String.le_antisymm hle (String.not_lt.1 hnlt)) hne
          · exact Decidable.byContradiction fun hnlt' =>
              hne (String.le_antisymm (String.not_lt.1 hnlt') hle)
        · exact hq p hp

/-- A set of refactorings: one record for each description, in order. -/
structure Refactorings where
  records : List Refactoring
  ordered : Ordered records
deriving DecidableEq

namespace Refactorings

/-- The set without records. -/
def empty : Refactorings := ⟨[], .nil⟩

/-- Adds a record, unless its description is there already. -/
def insert (s : Refactorings) (r : Refactoring) : Refactorings :=
  ⟨insertRecord r s.records, s.ordered.insertRecord r⟩

/-- Adds records one after the other. -/
def extend (s : Refactorings) (rs : List Refactoring) : Refactorings := rs.foldl insert s

/-- The set of the given records, of which the first for each description counts. -/
def ofList (rs : List Refactoring) : Refactorings := empty.extend rs

/-- The record with a given description. -/
def find? (s : Refactorings) (description : String) : Option Refactoring :=
  s.records.find? fun r => r.description == description

/-- Whether a description is there. -/
def contains (s : Refactorings) (description : String) : Bool := (s.find? description).isSome

/-- The descriptions, in order. -/
def descriptions (s : Refactorings) : List String := s.records.map (·.description)

/-- The number of records. -/
def size (s : Refactorings) : Nat := s.records.length

/-- Whether two sets are about the same refactorings. -/
def same (s t : Refactorings) : Bool := s.descriptions == t.descriptions

end Refactorings

end Recast
