import Recast.Proofs.Detect.Isolation
import Recast.Proofs.Text.ByteOrder

/-!
# Detection in a batch

A batch is a list of differences, each with its path. What is found in it is put together from what
is found in each pair, and the order of the pairs only decides whose record stays.

* `Finds`, `FindsFirst`: a pair has a record with a description, and is the first to have one;
* `fault?`: the failure of a pair, if there is one;
* `detectMany_eq_joinAll`: a batch is put together from its pairs;
* `find?_detectMany`, `failures_detectMany`: what is found in a batch, and what fails in it;
* `failures_detectMany_of_inRange`: nothing fails in a batch whose numbers are in range;
* `detectMany_firstWins`: **the first record with a description stays, failures keep their order,
  and batches are joined as their lists are.**
-/

namespace Recast

variable {passes : Passes} {xs : List (String × Diff)}

/-! ## 1. One pair -/

/-- Detection in a pair finds this record for a description. -/
def Finds (passes : Passes) (pair : String × Diff) (x : String) (r : Refactoring) : Prop :=
  ∃ found, detect pair.1 pair.2 passes = .ok found ∧ found.find? x = some r

/-- The failure of a pair in which detection ends in a fault. -/
def fault? (passes : Passes) (pair : String × Diff) : Option Failure :=
  match detect pair.1 pair.2 passes with
  | .ok _ => none
  | .error fault => some (.crashed pair.1 fault.message)

/-- The report of one pair. -/
def reportOf (passes : Passes) (pair : String × Diff) : Report :=
  .ofOutcome (tryDetect pair.1 pair.2 passes)

theorem find?_reportOf {pair : String × Diff} {x : String} {r : Refactoring} :
    (reportOf passes pair).refactorings.find? x = some r ↔ Finds passes pair x r := by
  unfold reportOf tryDetect Finds
  cases h : detect pair.1 pair.2 passes with
  | ok found => simp [Except.mapError, Report.ofOutcome]
  | error fault =>
    have hempty : Refactorings.empty.find? x = none := rfl
    simp [Except.mapError, Report.ofOutcome, hempty]

theorem failures_reportOf (pair : String × Diff) :
    (reportOf passes pair).failures = (fault? passes pair).toList := by
  unfold reportOf tryDetect fault?
  cases detect pair.1 pair.2 passes with
  | ok found => rfl
  | error fault => rfl

/-! ## 2. A batch -/

/-- Of the pairs that have a record with a description, the first has this one. -/
def FindsFirst (passes : Passes) (xs : List (String × Diff)) (x : String) (r : Refactoring) :
    Prop :=
  ∃ earlier pair later, xs = earlier ++ pair :: later ∧ Finds passes pair x r ∧
    ∀ p ∈ earlier, ∀ q, ¬ Finds passes p x q

/-- A batch is put together from its pairs. -/
theorem detectMany_eq_joinAll (xs : List (String × Diff)) (passes : Passes) :
    detectMany xs passes = .joinAll (xs.map (reportOf passes)) := by
  unfold detectMany
  rw [Report.merge_eq_joinAll, List.map_map]
  rfl

theorem find?_detectMany_eq (xs : List (String × Diff)) (passes : Passes) (x : String) :
    (detectMany xs passes).refactorings.find? x =
      xs.findSome? fun pair => (reportOf passes pair).refactorings.find? x := by
  rw [detectMany_eq_joinAll, Report.find?_joinAll, List.findSome?_map]
  rfl

/-- **What is found in a batch is found in the first pair that has it.** -/
theorem find?_detectMany {x : String} {r : Refactoring} :
    (detectMany xs passes).refactorings.find? x = some r ↔ FindsFirst passes xs x r := by
  have hnone (pair : String × Diff) : (reportOf passes pair).refactorings.find? x = none ↔
      ∀ q, ¬ Finds passes pair x q := by
    simp only [← find?_reportOf, Option.eq_none_iff_forall_ne_some, ne_eq]
  rw [find?_detectMany_eq, List.findSome?_eq_some_iff]
  simp only [find?_reportOf, hnone]
  rfl

theorem mem_descriptions_detectMany {x : String} :
    x ∈ (detectMany xs passes).refactorings.descriptions ↔
      ∃ pair ∈ xs, x ∈ (reportOf passes pair).refactorings.descriptions := by
  rw [detectMany_eq_joinAll, Report.mem_descriptions_joinAll]
  simp only [List.mem_map, exists_exists_and_eq_and]

/-- What fails in a batch is listed in the order of the pairs. -/
theorem failures_detectMany (xs : List (String × Diff)) (passes : Passes) :
    (detectMany xs passes).failures = xs.filterMap (fault? passes) := by
  rw [detectMany_eq_joinAll, Report.failures_joinAll, List.flatMap_map,
    List.filterMap_eq_flatMap_toList]
  simp only [failures_reportOf]

/-- Nothing fails in a batch whose numbers are in range. -/
theorem failures_detectMany_of_inRange (h : ∀ pair ∈ xs, pair.2.InRange) :
    (detectMany xs passes).failures = [] := by
  rw [failures_detectMany, List.filterMap_eq_nil_iff]
  intro pair hpair
  obtain ⟨found, hfound⟩ := exists_detect (h pair hpair) pair.1 passes
  unfold fault?
  rw [hfound]

/-! ## 3. Batches joined, repeated and rearranged -/

/-- **The first record with a description stays.** A batch keeps, for each description, the record
    of the first pair that has one, in the order of the bytes of the descriptions, and lists the
    pairs that fail in their own order. Of two batches one after the other the records of the first
    stay and the failures are joined; a batch repeated adds no record, and a batch rearranged has
    the same descriptions. -/
theorem detectMany_firstWins (passes : Passes) (xs ys : List (String × Diff)) :
    let report := detectMany xs passes
    let both := detectMany (xs ++ ys) passes
    (∀ x r, report.refactorings.find? x = some r ↔ FindsFirst passes xs x r) ∧
    (∀ x r, report.refactorings.find? x = some r ↔
      r ∈ report.refactorings.records ∧ r.description = x) ∧
    (report.refactorings.records.map fun r => Text.utf8 r.description).Pairwise (· < ·) ∧
    report.failures = xs.filterMap (fault? passes) ∧
    (∀ x, both.refactorings.find? x =
      (report.refactorings.find? x).or ((detectMany ys passes).refactorings.find? x)) ∧
    both.failures = report.failures ++ (detectMany ys passes).failures ∧
    (detectMany (xs ++ xs) passes).refactorings = report.refactorings ∧
    ∀ zs, xs.Perm zs →
      (detectMany zs passes).refactorings.descriptions = report.refactorings.descriptions := by
  intro report both
  have happend (ys : List (String × Diff)) (x : String) :
      (detectMany (xs ++ ys) passes).refactorings.find? x =
        (report.refactorings.find? x).or ((detectMany ys passes).refactorings.find? x) := by
    simp only [report, find?_detectMany_eq, List.findSome?_append]
  refine ⟨fun x r => find?_detectMany, fun x r => Refactorings.find?_eq_some_iff, ?_,
    failures_detectMany xs passes, happend ys, ?_, ?_, ?_⟩
  · exact List.pairwise_map.2 (report.refactorings.ordered.imp Text.utf8_lt_iff.2)
  · simp only [both, report, failures_detectMany, List.filterMap_append]
  · refine Refactorings.eq_of_find?_eq fun x => ?_
    rw [happend xs x, Option.or_self]
  · intro zs hperm
    refine Refactorings.descriptions_eq fun x => ?_
    simp only [report, mem_descriptions_detectMany, hperm.mem_iff]

/-- The same renamed method in two files, and between them a script with a number that is no node:
    turned around, the batch keeps the record of the other file. -/
theorem detectMany_firstWins_turned :
    let misnumbered : Diff := { renamedTrees with script := [.update 9 "g"] }
    let xs := [("A.java", renamedTrees), ("B.java", misnumbered), ("C.java", renamedTrees)]
    let report := detectMany xs {}
    let turned := detectMany xs.reverse {}
    report.refactorings.records.map (·.before.filePath) = ["A.java"] ∧
      turned.refactorings.records.map (·.before.filePath) = ["C.java"] ∧
      report.failures = [.crashed "B.java" (Fault.missingNode 7 9).message] ∧
      xs.Perm xs.reverse ∧ turned.refactorings.descriptions = report.refactorings.descriptions ∧
      (detectMany (xs ++ xs) {}).refactorings = report.refactorings := by
  intro misnumbered xs report turned
  obtain ⟨-, -, -, -, -, -, htwice, hperm⟩ := detectMany_firstWins {} xs []
  have hturned : xs.Perm xs.reverse := (List.reverse_perm xs).symm
  exact ⟨by decide +kernel, by decide +kernel, by decide +kernel, hturned, hperm _ hturned, htwice⟩

end Recast
