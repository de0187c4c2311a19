import Recast.Detect
import Recast.Proofs.Refactoring.Set

/-!
# What a report holds

A report of many files is put together from the reports of single ones.

* `Report.ofOutcome`: the report of one outcome, a set of records or one failure;
* `Report.join`, `Report.joinAll`: reports put together, the records of an earlier one staying;
* `find?_joinAll`, `failures_joinAll`: what is found in the whole is found in the first part that
  has it, and what failed is listed part by part;
* `merge_eq_joinAll`: **the report of many outcomes is put together from those of each.**
-/

namespace Recast.Report

/-! ## 1. Parts -/

/-- The report of one outcome. -/
def ofOutcome : Except Failure Refactorings → Report
  | .ok found => ⟨found, []⟩
  | .error failure => ⟨.empty, [failure]⟩

/-- Two reports put together: of the records with one description that of the first stays. -/
def join (r s : Report) : Report :=
  ⟨r.refactorings.extend s.refactorings.records, r.failures ++ s.failures⟩

/-- Reports put together in order. -/
def joinAll (reports : List Report) : Report := reports.foldl join empty

theorem find?_join (r s : Report) (x : String) :
    (r.join s).refactorings.find? x = (r.refactorings.find? x).or (s.refactorings.find? x) :=
  Refactorings.find?_extend r.refactorings s.refactorings.records x

theorem find?_foldl_join (reports : List Report) (r : Report) (x : String) :
    (reports.foldl join r).refactorings.find? x =
      (r.refactorings.find? x).or (reports.findSome? fun s => s.refactorings.find? x) := by
  induction reports generalizing r with
  | nil => exact (Option.or_none ..).symm
  | cons s reports ih =>
    rw [List.foldl_cons, ih, find?_join, Option.or_assoc, List.findSome?_cons]
    congr 1
    cases s.refactorings.find? x with
    | none => rfl
    | some q => rfl

/-- **What is found in the whole is found in the first part that has it.** -/
theorem find?_joinAll (reports : List Report) (x : String) :
    (joinAll reports).refactorings.find? x =
      reports.findSome? fun r => r.refactorings.find? x :=
  find?_foldl_join reports empty x

theorem mem_descriptions_joinAll {reports : List Report} {x : String} :
    x ∈ (joinAll reports).refactorings.descriptions ↔
      ∃ r ∈ reports, x ∈ r.refactorings.descriptions := by
  simp only [Refactorings.mem_descriptions_iff, find?_joinAll, ← Option.isSome_iff_exists]
  exact List.findSome?_isSome_iff

theorem failures_foldl_join (reports : List Report) (r : Report) :
    (reports.foldl join r).failures = r.failures ++ reports.flatMap (·.failures) := by
  induction reports generalizing r with
  | nil => exact (List.append_nil _).symm
  | cons s reports ih =>
    rw [List.foldl_cons, ih, List.flatMap_cons, ← List.append_assoc]
    rfl

/-- What failed is listed part by part. -/
theorem failures_joinAll (reports : List Report) :
    (joinAll reports).failures = reports.flatMap (·.failures) :=
  failures_foldl_join reports empty

/-! ## 2. Outcomes -/

/-- One more outcome is one more part. -/
theorem add_eq_join (r : Report) (outcome : Except Failure Refactorings) :
    r.add outcome = r.join (ofOutcome outcome) := by
  cases outcome with
  | ok found =>
    show _ = Report.mk _ (r.failures ++ [])
    rw [List.append_nil]
    rfl
  | error failure => rfl

/-- **The report of many outcomes is put together from those of each.** -/
theorem merge_eq_joinAll (outcomes : List (Except Failure Refactorings)) :
    merge outcomes = joinAll (outcomes.map ofOutcome) := by
  unfold merge joinAll
  rw [List.foldl_map]
  congr 1
  funext r outcome
  exact r.add_eq_join outcome

theorem merge_singleton (outcome : Except Failure Refactorings) :
    merge [outcome] = ofOutcome outcome := by
  cases outcome with
  | ok found =>
    show Report.mk (Refactorings.ofList found.records) [] = _
    rw [Refactorings.ofList_records]
    rfl
  | error failure => rfl

/-- An outcome without a record and without a failure may be left out. -/
theorem merge_filter {α : Type} {f : α → Except Failure Refactorings} {p : α → Bool} {as : List α}
    (h : ∀ a ∈ as, p a = false → f a = .ok .empty) :
    merge ((as.filter p).map f) = merge (as.map f) := by
  suffices hfold : ∀ r : Report,
      ((as.filter p).map f).foldl add r = (as.map f).foldl add r from hfold empty
  induction as with
  | nil => exact fun _ => rfl
  | cons a as ih =>
    obtain ⟨ha, has⟩ := List.forall_mem_cons.1 h
    intro r
    cases hp : p a with
    | true =>
      rw [List.filter_cons_of_pos hp, List.map_cons, List.map_cons, List.foldl_cons,
        List.foldl_cons, ih has]
    | false =>
      rw [List.filter_cons_of_neg (by simp [hp]), List.map_cons, List.foldl_cons, ha hp, ih has]
      rfl

end Recast.Report
