import Mathlib.Data.List.Flatten
import Recast.Proofs.Detect.Total
import Recast.Proofs.Report
import Recast.Proofs.Snapshot

/-!
# Files are detected apart from each other

A file of two snapshots goes through five stages: both texts are parsed, the trees are matched, the
script is made, and the difference is classified. Each of them may end in a fault, all but the last
may also refuse, and each depends on the two texts of the file alone.

* `Collaborators.Gives`, `Collaborators.Stops`: the first four stages, and where they stop;
* `Collaborators.Outcome`, `Collaborators.outcome_iff`: what all five make of a file;
* `diffSnapshots_only`: a run over one file has its outcome alone;
* `diffSnapshots_eq_joinAll`: a run over all files is put together from these;
* `diffSnapshots_isolated`: **the report of two snapshots is that of their common files one by one,
  and no file has a part in the failure or in the descriptions of another.**
-/

namespace Recast

/-! ## 1. One file -/

namespace Collaborators

variable {c : Collaborators} {old new : String}

/-- All stages up to the script succeed, and this is the difference. -/
structure Gives (c : Collaborators) (old new : String) (d : Diff) : Prop where
  parseOld : c.parse old = .ok d.before
  parseNew : c.parse new = .ok d.after
  matching : c.matchTrees d.before d.after = .ok d.mapping
  scripting : c.editScript d.before d.after d.mapping = .ok d.script

/-- One of these stages is the first without an answer, and this is its trouble. -/
inductive Stops (c : Collaborators) (old new : String) (trouble : Trouble) : Prop where
  | parseOld (h : c.parse old = .error trouble)
  | parseNew {s : Tree} (hs : c.parse old = .ok s) (h : c.parse new = .error trouble)
  | matching {s t : Tree} (hs : c.parse old = .ok s) (ht : c.parse new = .ok t)
      (h : c.matchTrees s t = .error trouble)
  | scripting {s t : Tree} {m : Correspondence} (hs : c.parse old = .ok s)
      (ht : c.parse new = .ok t) (hm : c.matchTrees s t = .ok m)
      (h : c.editScript s t m = .error trouble)

theorem diff_eq_ok {d : Diff} : c.diff old new = .ok d ↔ c.Gives old new d := by
  unfold diff
  simp only [bind_eq_ok]
  constructor
  · rintro ⟨s, hs, t, ht, m, hm, script, hscript, h⟩
    cases h
    exact ⟨hs, ht, hm, hscript⟩
  · rintro ⟨hs, ht, hm, hscript⟩
    exact ⟨_, hs, _, ht, _, hm, _, hscript, rfl⟩

theorem diff_eq_error {trouble : Trouble} :
    c.diff old new = .error trouble ↔ c.Stops old new trouble := by
  unfold diff
  simp only [bind_eq_error]
  constructor
  · rintro (h | ⟨s, hs, h | ⟨t, ht, h | ⟨m, hm, h | ⟨script, -, h⟩⟩⟩⟩)
    · exact .parseOld h
    · exact .parseNew hs h
    · exact .matching hs ht h
    · exact .scripting hs ht hm h
    · cases h
  · intro h
    cases h with
    | parseOld h => exact .inl h
    | parseNew hs h => exact .inr ⟨_, hs, .inl h⟩
    | matching hs ht h => exact .inr ⟨_, hs, .inr ⟨_, ht, .inl h⟩⟩
    | scripting hs ht hm h => exact .inr ⟨_, hs, .inr ⟨_, ht, .inr ⟨_, hm, .inl h⟩⟩⟩

/-- What the stages, classification included, make of one file: its records, or a failure that names
    the file. A stage that refuses is told from one that ends in a fault. -/
inductive Outcome (c : Collaborators) (passes : Passes) (path old new : String) :
    Except Failure Refactorings → Prop where
  | found {d : Diff} {found : Refactorings} (hd : c.Gives old new d)
      (h : detect path d passes = .ok found) : Outcome c passes path old new (.ok found)
  | refused {message : String} (h : c.Stops old new (.refused message)) :
      Outcome c passes path old new (.error (.refused path message))
  | crashed {f : Fault} (h : c.Stops old new (.fault f)) :
      Outcome c passes path old new (.error (.crashed path f.message))
  | crashedLast {d : Diff} {f : Fault} (hd : c.Gives old new d)
      (h : detect path d passes = .error f) :
      Outcome c passes path old new (.error (.crashed path f.message))

/-- **What the stages make of a file is what is computed**, and nothing else. -/
theorem outcome_iff {passes : Passes} {path : String} {outcome : Except Failure Refactorings} :
    c.Outcome passes path old new outcome ↔ outcome = c.diffFile passes path old new := by
  constructor
  · intro h
    unfold diffFile
    cases h with
    | found hd h =>
      rw [diff_eq_ok.2 hd]
      exact (tryDetect_eq_ok.2 h).symm
    | refused h =>
      rw [diff_eq_error.2 h]
      rfl
    | crashed h =>
      rw [diff_eq_error.2 h]
      rfl
    | crashedLast hd h =>
      rw [diff_eq_ok.2 hd]
      dsimp only [tryDetect]
      rw [h, Except.mapError]
  · rintro rfl
    unfold diffFile
    cases hdiff : c.diff old new with
    | error trouble =>
      have hstops := diff_eq_error.1 hdiff
      cases trouble with
      | refused message => exact .refused hstops
      | fault f => exact .crashed hstops
    | ok d =>
      have hgives := diff_eq_ok.1 hdiff
      dsimp only [tryDetect]
      cases hdetect : detect path d passes with
      | error f => exact .crashedLast hgives hdetect
      | ok found => exact .found hgives hdetect

/-- A file has at most one failure, and that names it. -/
theorem Outcome.failures_sublist {passes : Passes} {path : String}
    {outcome : Except Failure Refactorings} (h : c.Outcome passes path old new outcome) :
    ((Report.ofOutcome outcome).failures.map Failure.path).Sublist [path] := by
  cases h with
  | found _ _ => exact List.nil_sublist _
  | refused _ => exact .refl _
  | crashed _ => exact .refl _
  | crashedLast _ _ => exact .refl _

end Collaborators

/-! ## 2. All files -/

section Snapshots

variable {before after : Snapshot} {path old new : String}

/-- A run over one file has its outcome alone. -/
theorem diffSnapshots_only (hold : before.text? path = some old)
    (hnew : after.text? path = some new) (c : Collaborators) (passes : Passes) :
    diffSnapshots (before.only path) (after.only path) c passes =
      .ofOutcome (c.diffFile passes path old new) := by
  unfold diffSnapshots
  rw [Snapshot.common_only (Snapshot.mem_common.2 ⟨hold, hnew⟩)]
  exact Report.merge_singleton _

/-- **A run over all files is put together from runs over one.** -/
theorem diffSnapshots_eq_joinAll (before after : Snapshot) (c : Collaborators) (passes : Passes) :
    diffSnapshots before after c passes = .joinAll ((before.shared after).map fun path =>
      diffSnapshots (before.only path) (after.only path) c passes) := by
  rw [diffSnapshots, Report.merge_eq_joinAll, Snapshot.shared, List.map_map, List.map_map]
  congr 1
  refine List.map_congr_left ?_
  rintro ⟨path, old, new⟩ hmem
  obtain ⟨hold, hnew⟩ := Snapshot.mem_common.1 hmem
  exact (diffSnapshots_only hold hnew c passes).symm

/-- What fails in a run over one common file names that file. -/
theorem failures_only_sublist (hpath : path ∈ before.shared after) (c : Collaborators)
    (passes : Passes) :
    ((diffSnapshots (before.only path) (after.only path) c passes).failures.map
      Failure.path).Sublist [path] := by
  obtain ⟨⟨old, hold⟩, ⟨new, hnew⟩⟩ := Snapshot.mem_shared.1 hpath
  rw [diffSnapshots_only hold hnew]
  exact (Collaborators.outcome_iff.2 rfl).failures_sublist

/-- No common file fails twice, so that the failures name common files in the order of the paths. -/
theorem failurePaths_sublist_shared (before after : Snapshot) (c : Collaborators)
    (passes : Passes) :
    ((diffSnapshots before after c passes).failures.map Failure.path).Sublist
      (before.shared after) := by
  rw [diffSnapshots_eq_joinAll, Report.failures_joinAll, List.flatMap_map, List.map_flatMap]
  have hsublist := List.Sublist.flatMap_right (before.shared after) fun path hpath =>
    failures_only_sublist hpath c passes
  rwa [List.flatMap_singleton'] at hsublist

/-- A failure of the whole run is one of the run over the file it names. -/
theorem mem_failures_iff (before after : Snapshot) (c : Collaborators) (passes : Passes)
    (failure : Failure) :
    failure ∈ (diffSnapshots before after c passes).failures ↔
      failure.path ∈ before.shared after ∧ failure ∈ (diffSnapshots (before.only failure.path)
        (after.only failure.path) c passes).failures := by
  rw [diffSnapshots_eq_joinAll, Report.failures_joinAll, List.flatMap_map, List.mem_flatMap]
  constructor
  · rintro ⟨path, hpath, hmem⟩
    have hname := (failures_only_sublist hpath c passes).subset (List.mem_map_of_mem hmem)
    obtain rfl := List.mem_singleton.1 hname
    exact ⟨hpath, hmem⟩
  · rintro ⟨hpath, hmem⟩
    exact ⟨_, hpath, hmem⟩

/-- What a run over one common file describes, the whole run describes. -/
theorem descriptions_only_subset (hpath : path ∈ before.shared after) (c : Collaborators)
    (passes : Passes) :
    (diffSnapshots (before.only path) (after.only path) c passes).refactorings.descriptions ⊆
      (diffSnapshots before after c passes).refactorings.descriptions := by
  intro x hx
  rw [diffSnapshots_eq_joinAll]
  exact Report.mem_descriptions_joinAll.2 ⟨_, List.mem_map_of_mem hpath, hx⟩

/-- A run over one file does not depend on anything outside it. -/
theorem diffSnapshots_only_congr {before' after' : Snapshot} {c c' : Collaborators}
    (hold : before.text? path = some old) (hnew : after.text? path = some new)
    (hold' : before'.text? path = some old) (hnew' : after'.text? path = some new)
    (hdiff : c'.diff old new = c.diff old new) (passes : Passes) :
    diffSnapshots (before'.only path) (after'.only path) c' passes =
      diffSnapshots (before.only path) (after.only path) c passes := by
  rw [diffSnapshots_only hold hnew, diffSnapshots_only hold' hnew', Collaborators.diffFile,
    Collaborators.diffFile, hdiff]

end Snapshots

/-- **Files are detected apart from each other.** The report of two snapshots is put together, in
    the order of the paths, from the reports of runs over each file that both have: the first record
    with a description stays, and what failed is listed file by file. A file contributes its one
    outcome. A run over other snapshots, and with other collaborators, that agrees on this file has
    the same failure of it, and its descriptions too. -/
theorem diffSnapshots_isolated (before after : Snapshot) (c : Collaborators) (passes : Passes) :
    let report := diffSnapshots before after c passes
    let shared := before.shared after
    let alone path := diffSnapshots (before.only path) (after.only path) c passes
    shared.Pairwise (· < ·) ∧
    (∀ path, path ∈ shared ↔
      (∃ old, before.text? path = some old) ∧ ∃ new, after.text? path = some new) ∧
    report = .joinAll (shared.map alone) ∧
    (∀ x, report.refactorings.find? x =
      shared.findSome? fun path => (alone path).refactorings.find? x) ∧
    report.failures = shared.flatMap (fun path => (alone path).failures) ∧
    (report.failures.map Failure.path).Pairwise (· < ·) ∧
    ∀ path old new, before.text? path = some old → after.text? path = some new →
      (∃ outcome, (∀ x, c.Outcome passes path old new x ↔ x = outcome) ∧
        alone path = .ofOutcome outcome) ∧
      ∀ (before' after' : Snapshot) (c' : Collaborators), before'.text? path = some old →
        after'.text? path = some new → c'.diff old new = c.diff old new →
        let report' := diffSnapshots before' after' c' passes
        (∀ failure, failure.path = path →
          (failure ∈ report.failures ↔ failure ∈ report'.failures)) ∧
        (alone path).refactorings.descriptions ⊆ report.refactorings.descriptions ∧
        (alone path).refactorings.descriptions ⊆ report'.refactorings.descriptions := by
  intro report shared alone
  have hjoin : report = .joinAll (shared.map alone) :=
    diffSnapshots_eq_joinAll before after c passes
  have hfind (x : String) : report.refactorings.find? x =
      shared.findSome? fun path => (alone path).refactorings.find? x := by
    rw [hjoin, Report.find?_joinAll, List.findSome?_map]
    rfl
  have hfailures : report.failures = shared.flatMap fun path => (alone path).failures := by
    rw [hjoin, Report.failures_joinAll, List.flatMap_map]
  have hpaths := failurePaths_sublist_shared before after c passes
  refine ⟨before.shared_sorted after, fun path => Snapshot.mem_shared, hjoin, hfind, hfailures,
    (before.shared_sorted after).sublist hpaths, ?_⟩
  intro path old new hold hnew
  refine ⟨⟨_, fun x => Collaborators.outcome_iff, diffSnapshots_only hold hnew c passes⟩, ?_⟩
  intro before' after' c' hold' hnew' hdiff report'
  have hshared : path ∈ shared := Snapshot.mem_shared.2 ⟨⟨old, hold⟩, ⟨new, hnew⟩⟩
  have hshared' : path ∈ before'.shared after' :=
    Snapshot.mem_shared.2 ⟨⟨old, hold'⟩, ⟨new, hnew'⟩⟩
  have halone : diffSnapshots (before'.only path) (after'.only path) c' passes = alone path :=
    diffSnapshots_only_congr hold hnew hold' hnew' hdiff passes
  refine ⟨?_, descriptions_only_subset hshared c passes, ?_⟩
  · rintro failure rfl
    rw [mem_failures_iff before after, mem_failures_iff before' after', halone]
    exact ⟨fun h => ⟨hshared', h.2⟩, fun h => ⟨hshared, h.2⟩⟩
  · rw [← halone]
    exact descriptions_only_subset hshared' c' passes

/-- The difference that `renamedMethod` describes. -/
def renamedTrees : Diff := renamedMethod.load.toOption.get (by decide +kernel)

/-- Collaborators that know the two trees of `renamedTrees` and match no text with itself. -/
def picky : Collaborators :=
  { Collaborators.byShape [renamedTrees.before, renamedTrees.after] with
    matchTrees := fun s t =>
      if s.text = t.text then .error (.fault (.stopped "same text"))
      else (matchByShape s t).mapError .fault }

/-- Of three common files the second has no tree at first and the third does not change. The first
    is found whether the second fails or, in other snapshots, does not. -/
theorem diffSnapshots_isolated_picky :
    let f := renamedTrees.before.text
    let g := renamedTrees.after.text
    let before := Snapshot.ofList [("A.java", f), ("B.java", ""), ("C.java", f), ("D.java", f)]
    let after := Snapshot.ofList [("A.java", g), ("B.java", g), ("C.java", f)]
    let report := diffSnapshots before after picky {}
    let alone := diffSnapshots (before.only "A.java") (after.only "A.java") picky {}
    let report' := diffSnapshots (.ofList [("A.java", f), ("B.java", g)])
      (.ofList [("A.java", g), ("B.java", f)]) picky {}
    report.failures =
        [.refused "B.java" "no fixture tree for \"\"", .crashed "C.java" "same text"] ∧
      (report.failures.map Failure.path).Pairwise (· < ·) ∧ report'.failures = [] ∧
      alone.refactorings.descriptions.length = 1 ∧
      alone.refactorings.descriptions ⊆ report.refactorings.descriptions ∧
      alone.refactorings.descriptions ⊆ report'.refactorings.descriptions := by
  intro f g before after report alone report'
  obtain ⟨-, -, -, -, -, hpaths, hfile⟩ := diffSnapshots_isolated before after picky {}
  obtain ⟨-, hothers⟩ := hfile "A.java" f g (by decide +kernel) (by decide +kernel)
  obtain ⟨-, hreport, hreport'⟩ := hothers (.ofList [("A.java", f), ("B.java", g)])
    (.ofList [("A.java", g), ("B.java", f)]) picky (by decide +kernel) (by decide +kernel) rfl
  exact ⟨by decide +kernel, hpaths, by decide +kernel, by decide +kernel, hreport, hreport'⟩

end Recast
