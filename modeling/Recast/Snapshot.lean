/-!
# Snapshots

A snapshot is one version of a set of files: a text for each path, in the order of the paths.
-/

namespace Recast

/-- Puts a file in its place in a list ordered by path, instead of the one with the same path. -/
def insertFile (path text : String) : List (String × String) → List (String × String)
  | [] => [(path, text)]
  | f :: fs =>
    if path < f.1 then (path, text) :: f :: fs
    else if path = f.1 then (path, text) :: fs
    else f :: insertFile path text fs

theorem fst_mem_of_mem_insertFile {path text : String} {fs : List (String × String)}
    {f : String × String} (h : f ∈ insertFile path text fs) :
    f.1 = path ∨ ∃ g ∈ fs, g.1 = f.1 := by
  induction fs with
  | nil => simp_all [insertFile]
  | cons g gs ih =>
    rw [insertFile] at h
    split at h
    · rcases List.mem_cons.1 h with rfl | h
      · simp
      · exact .inr ⟨f, h, rfl⟩
    · split at h
      · rcases List.mem_cons.1 h with rfl | h
        · simp
        · exact .inr ⟨f, by simp [h], rfl⟩
      · rcases List.mem_cons.1 h with rfl | h
        · exact .inr ⟨f, by simp, rfl⟩
        · rcases ih h with h | ⟨k, hk, h⟩
          · exact .inl h
          · exact .inr ⟨k, by simp [hk], h⟩

theorem insertFile_sorted {path text : String} {fs : List (String × String)}
    (h : fs.Pairwise fun f g => f.1 < g.1) :
    (insertFile path text fs).Pairwise fun f g => f.1 < g.1 := by
  induction fs with
  | nil => simp [insertFile]
  | cons g gs ih =>
    obtain ⟨hg, hgs⟩ := List.pairwise_cons.1 h
    rw [insertFile]
    split
    · rename_i hlt
      refine List.pairwise_cons.2 ⟨fun f hf => ?_, h⟩
      rcases List.mem_cons.1 hf with rfl | hf
      · exact hlt
      · exact String.lt_trans hlt (hg f hf)
    · split
      · rename_i heq
        refine List.pairwise_cons.2 ⟨fun f hf => ?_, hgs⟩
        simpa [heq] using hg f hf
      · rename_i hnlt hne
        refine List.pairwise_cons.2 ⟨fun f hf => ?_, ih hgs⟩
        rcases fst_mem_of_mem_insertFile hf with h | ⟨k, hk, h⟩
        · rw [h]
          exact Decidable.byContradiction fun hnlt' =>
            hne (String.le_antisymm (String.not_lt.1 hnlt') (String.not_lt.1 hnlt))
        · exact h ▸ hg k hk

/-- One version of a set of files. -/
structure Snapshot where
  files : List (String × String)
  sorted : files.Pairwise fun f g => f.1 < g.1

namespace Snapshot

/-- The snapshot of the given files; of two with the same path the later counts. -/
def ofList (files : List (String × String)) : Snapshot :=
  files.foldl (fun s f => ⟨insertFile f.1 f.2 s.files, insertFile_sorted s.sorted⟩) ⟨[], .nil⟩

/-- The text of a file. -/
def text? (s : Snapshot) (path : String) : Option String :=
  (s.files.find? fun f => f.1 == path).map (·.2)

/-- The files of two snapshots that both have, with the earlier and the later text. -/
def common (before after : Snapshot) : List (String × String × String) :=
  before.files.filterMap fun (path, old) => (after.text? path).map fun new => (path, old, new)

end Snapshot

end Recast
