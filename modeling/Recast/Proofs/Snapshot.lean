import Recast.Proofs.Keyed
import Recast.Snapshot

/-!
# Files of snapshots

* `text?_eq_some_iff`: a file has the text it is listed with, and no other;
* `restrict`, `only`, `without`: a snapshot with some of its files;
* `mem_common`, `common_sorted`: the files of two snapshots that both have, in the order of the
  paths;
* `common_restrict`: **what two snapshots have in common is found file by file.**
-/

namespace Recast.Snapshot

variable {before after : Snapshot} {path : String}

/-! ## 1. Texts -/

theorem text?_eq_some_iff {s : Snapshot} {text : String} :
    s.text? path = some text ↔ (path, text) ∈ s.files := by
  have hdistinct : s.files.Pairwise fun f g => f.1 ≠ g.1 := s.sorted.imp String.ne_of_lt
  unfold text?
  simp only [Option.map_eq_some_iff, find?_key_eq_some_iff hdistinct]
  constructor
  · rintro ⟨f, ⟨hf, rfl⟩, rfl⟩
    exact hf
  · intro h
    exact ⟨(path, text), ⟨h, rfl⟩, rfl⟩

/-- The files of a snapshot whose paths are kept. -/
def restrict (s : Snapshot) (keep : String → Bool) : Snapshot :=
  ⟨s.files.filter fun f => keep f.1, s.sorted.filter _⟩

/-- The snapshot of one of the files. -/
def only (s : Snapshot) (path : String) : Snapshot := s.restrict (· == path)

/-- The snapshot of all files but one. -/
def without (s : Snapshot) (path : String) : Snapshot := s.restrict (· != path)

theorem text?_restrict (s : Snapshot) (keep : String → Bool) (path : String) :
    (s.restrict keep).text? path = if keep path then s.text? path else none := by
  refine Option.ext fun text => ?_
  rw [text?_eq_some_iff, restrict, List.mem_filter, ← text?_eq_some_iff]
  split
  · rename_i h
    exact and_iff_left h
  · rename_i h
    constructor
    · intro hmem
      exact absurd hmem.2 h
    · intro hnone
      cases hnone

/-! ## 2. Common files -/

theorem mem_common {old new : String} :
    (path, old, new) ∈ before.common after ↔
      before.text? path = some old ∧ after.text? path = some new := by
  unfold common
  rw [List.mem_filterMap]
  constructor
  · rintro ⟨f, hf, hnew⟩
    obtain ⟨new', hnew', he⟩ := Option.map_eq_some_iff.1 hnew
    cases he
    exact ⟨text?_eq_some_iff.2 hf, hnew'⟩
  · rintro ⟨hold, hnew⟩
    exact ⟨(path, old), text?_eq_some_iff.1 hold, Option.map_eq_some_iff.2 ⟨new, hnew, rfl⟩⟩

theorem common_sorted (before after : Snapshot) :
    (before.common after).Pairwise fun f g => f.1 < g.1 := by
  refine List.pairwise_filterMap.2 (before.sorted.imp fun hlt x hx y hy => ?_)
  obtain ⟨_, -, rfl⟩ := Option.map_eq_some_iff.1 hx
  obtain ⟨_, -, rfl⟩ := Option.map_eq_some_iff.1 hy
  exact hlt

/-- **What two snapshots have in common is found file by file.** -/
theorem common_restrict (before after : Snapshot) (keep : String → Bool) :
    (before.restrict keep).common (after.restrict keep) =
      (before.common after).filter fun f => keep f.1 := by
  refine eq_of_mem_iff_of_sorted (common_sorted _ _) ((common_sorted _ _).filter _) ?_
  rintro ⟨path, old, new⟩
  rw [mem_common, List.mem_filter, mem_common, text?_restrict, text?_restrict]
  cases keep path with
  | true => simp
  | false => simp

/-- A file that both have is all that is common to their parts with this file only. -/
theorem common_only {old new : String} (h : (path, old, new) ∈ before.common after) :
    (before.only path).common (after.only path) = [(path, old, new)] := by
  refine eq_of_mem_iff_of_sorted (common_sorted _ _) (List.pairwise_singleton _ _) ?_
  rintro ⟨path', old', new'⟩
  rw [only, only, common_restrict, List.mem_filter, List.mem_singleton]
  constructor
  · rintro ⟨hmem, hpath⟩
    obtain rfl : path' = path := beq_iff_eq.1 hpath
    obtain ⟨hold, hnew⟩ := mem_common.1 h
    obtain ⟨hold', hnew'⟩ := mem_common.1 hmem
    rw [Option.some.inj (hold'.symm.trans hold), Option.some.inj (hnew'.symm.trans hnew)]
  · intro he
    cases he
    exact ⟨h, beq_self_eq_true path⟩

/-- The paths that two snapshots both have, in order. -/
def shared (before after : Snapshot) : List String := (before.common after).map (·.1)

theorem shared_sorted (before after : Snapshot) : (before.shared after).Pairwise (· < ·) :=
  List.pairwise_map.2 (common_sorted before after)

theorem mem_shared :
    path ∈ before.shared after ↔ (∃ old, before.text? path = some old) ∧
      ∃ new, after.text? path = some new := by
  unfold shared
  rw [List.mem_map]
  constructor
  · rintro ⟨⟨path, old, new⟩, hmem, rfl⟩
    obtain ⟨hold, hnew⟩ := mem_common.1 hmem
    exact ⟨⟨old, hold⟩, ⟨new, hnew⟩⟩
  · rintro ⟨⟨old, hold⟩, ⟨new, hnew⟩⟩
    exact ⟨(path, old, new), mem_common.2 ⟨hold, hnew⟩, rfl⟩

end Recast.Snapshot
