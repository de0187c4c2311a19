import Recast.Detect
import Recast.Proofs.Classify.Cases
import Recast.Proofs.Document.Load

/-!
# Detection never faults

Inside a tree no number can be wrong. Faults could only come from the numbers in the pairs and in
the script, and from the table of lines when a record is made. A difference whose numbers are in
range keeps the first from happening, `report_eq` the second.

* `renames_total`, `typeChanges_total`: each pass gives an answer;
* `exists_detect`: so does detection with any passes;
* `failures_merge`: outcomes without a failure make a report without one;
* `detect_total`: **detection in a difference in range succeeds, and detection in any number of
  loaded documents lists no failure.**
-/

namespace Recast

/-! ## 1. The passes -/

theorem exists_attempt {α : Type} {o : Option (Except Fault α)}
    (h : ∀ x, o = some x → ∃ a, x = .ok a) : ∃ o', attempt o = .ok o' := by
  cases o with
  | none => exact ⟨none, rfl⟩
  | some x =>
    obtain ⟨a, rfl⟩ := h x rfl
    exact ⟨some a, rfl⟩

namespace Diff

variable {d : Diff}

theorem InRange.dst?_lt (hd : d.InRange) {i j : Nat} (h : d.mapping.dst? i = some j) :
    j < d.after.nodes.size :=
  (hd.mapping _ (Correspondence.dst?_eq_some_iff.1 h)).2

theorem renameCandidates_total (hd : d.InRange) : ∃ xs, d.renameCandidates = .ok xs := by
  refine exists_gather fun e he => ?_
  unfold renameCandidate?
  split
  · rename_i n label
    rw [Tree.resolve_of_lt (hd.update n label he)]
    exact ⟨_, rfl⟩
  · exact ⟨none, rfl⟩

theorem classifyRename_total (hd : d.InRange) (path : String) (i : d.before.Id) (size : Nat) :
    ∃ o, d.classifyRename path i size = .ok o := by
  unfold classifyRename
  split
  · rename_i src j hsrc hj
    rw [Tree.resolve_of_lt (hd.dst?_lt hj)]
    refine exists_attempt fun x hx => ?_
    obtain ⟨dst, -, hx⟩ := Option.bind_eq_some_iff.1 hx
    obtain ⟨kind, -, -, hreport⟩ := Candidate.rename?_cases hx
    obtain ⟨_, _, _, _, _, _, rfl⟩ := hreport.exists_record
    exact ⟨_, rfl⟩
  · exact ⟨none, rfl⟩

/-- **The rename pass never faults.** -/
theorem renames_total (hd : d.InRange) (path : String) : ∃ rs, d.renames path = .ok rs := by
  obtain ⟨xs, hxs⟩ := renameCandidates_total hd
  unfold renames
  rw [hxs]
  exact exists_gather fun x _ => classifyRename_total hd path x.1 x.2

theorem typeCandidate?_total (hd : d.InRange) {e : Edit} (he : e ∈ d.script) :
    ∃ o, d.typeCandidate? e = .ok o := by
  unfold typeCandidate?
  split
  · rename_i n label
    rw [Tree.resolve_of_lt (hd.update n label he)]
    exact ⟨_, rfl⟩
  · rename_i n
    rw [Tree.resolve_of_lt (hd.move n he)]
    exact ⟨_, rfl⟩
  · exact ⟨none, rfl⟩

theorem genericCandidate?_total (hd : d.InRange) {p : Nat × Nat} (hp : p ∈ d.mapping.pairs) :
    ∃ o, d.genericCandidate? p = .ok o := by
  obtain ⟨h₁, h₂⟩ := hd.mapping p hp
  unfold genericCandidate?
  rw [Tree.resolve_of_lt h₁, Tree.resolve_of_lt h₂]
  dsimp only
  split
  · exact ⟨_, rfl⟩
  · exact ⟨none, rfl⟩

theorem typeCandidates_total (hd : d.InRange) : ∃ xs, d.typeCandidates = .ok xs := by
  obtain ⟨edited, hedited⟩ := exists_gather fun e he => typeCandidate?_total hd (e := e) he
  obtain ⟨generic, hgeneric⟩ := exists_gather fun p hp => genericCandidate?_total hd (p := p) hp
  unfold typeCandidates
  rw [hedited, hgeneric]
  exact ⟨_, rfl⟩

theorem classifyTypeChange_total (hd : d.InRange) (path : String) (c : TypeCandidate d.before) :
    ∃ o, d.classifyTypeChange path c = .ok o := by
  unfold classifyTypeChange
  split
  · rename_i j src hj hsrc
    rw [Tree.resolve_of_lt (hd.dst?_lt hj)]
    refine exists_attempt fun x hx => ?_
    obtain ⟨dst, -, hx⟩ := Option.bind_eq_some_iff.1 hx
    dsimp only at hx
    split at hx
    · cases hx
    · obtain ⟨kind, -, hreport⟩ := Candidate.typeChange?_cases hx
      obtain ⟨_, _, _, _, _, _, rfl⟩ := hreport.exists_record
      exact ⟨_, rfl⟩
  · exact ⟨none, rfl⟩

/-- **The type-change pass never faults.** -/
theorem typeChanges_total (hd : d.InRange) (path : String) : ∃ ts, d.typeChanges path = .ok ts := by
  obtain ⟨xs, hxs⟩ := typeCandidates_total hd
  unfold typeChanges
  rw [hxs]
  exact exists_gather fun x _ => classifyTypeChange_total hd path x.1

end Diff

/-- What detection finds: the renames, then the type changes, as far as they are asked for. -/
theorem detect_eq_ok {path : String} {d : Diff} {passes : Passes} {found : Refactorings} :
    detect path d passes = .ok found ↔
      ∃ rs ts, (if passes.renames then d.renames path else .ok []) = .ok rs ∧
        (if passes.typeChanges then d.typeChanges path else .ok []) = .ok ts ∧
        found = (Refactorings.ofList rs).extend ts := by
  have h : detect path d passes =
      (if passes.renames then d.renames path else .ok []) >>= fun rs =>
        (if passes.typeChanges then d.typeChanges path else .ok []) >>= fun ts =>
          .ok ((Refactorings.ofList rs).extend ts) := by
    unfold detect
    cases passes.renames <;> cases passes.typeChanges <;> rfl
  rw [h]
  simp only [bind_eq_ok]
  constructor
  · rintro ⟨rs, hrs, ts, hts, h⟩
    cases h
    exact ⟨rs, ts, hrs, hts, rfl⟩
  · rintro ⟨rs, ts, hrs, hts, rfl⟩
    exact ⟨rs, hrs, ts, hts, rfl⟩

/-- Both passes give an answer, so detection does. -/
theorem exists_detect {d : Diff} (hd : d.InRange) (path : String) (passes : Passes) :
    ∃ found, detect path d passes = .ok found := by
  obtain ⟨rs, hrs⟩ := Diff.renames_total hd path
  obtain ⟨ts, hts⟩ := Diff.typeChanges_total hd path
  unfold detect
  rw [hrs, hts]
  cases passes.renames <;> cases passes.typeChanges <;> exact ⟨_, rfl⟩

/-! ## 2. Reports -/

namespace Report

/-- One more success adds no failure. -/
theorem failures_add_ok (r : Report) (found : Refactorings) :
    (r.add (.ok found)).failures = r.failures := rfl

theorem failures_foldl_add {outcomes : List (Except Failure Refactorings)}
    (h : ∀ x ∈ outcomes, ∃ found, x = .ok found) (r : Report) :
    (outcomes.foldl add r).failures = r.failures := by
  induction outcomes generalizing r with
  | nil => rfl
  | cons x xs ih =>
    obtain ⟨hx, hxs⟩ := List.forall_mem_cons.1 h
    obtain ⟨found, rfl⟩ := hx
    rw [List.foldl_cons, ih hxs, failures_add_ok]

/-- Outcomes without a failure make a report without one. -/
theorem failures_merge {outcomes : List (Except Failure Refactorings)}
    (h : ∀ x ∈ outcomes, ∃ found, x = .ok found) : (merge outcomes).failures = [] :=
  failures_foldl_add h empty

end Report

/-! ## 3. Detection -/

theorem tryDetect_eq_ok {path : String} {d : Diff} {passes : Passes} {found : Refactorings} :
    tryDetect path d passes = .ok found ↔ detect path d passes = .ok found :=
  mapError_eq_ok

/-- **Detection in a difference in range never faults.** What a document describes is in range, so
    that detection in any number of loaded documents lists no failure. -/
theorem detect_total (passes : Passes) :
    (∀ (path : String) (d : Diff), d.InRange →
      ∃ found, detect path d passes = .ok found ∧ tryDetect path d passes = .ok found) ∧
    (∀ (doc : Document) (d : Diff), doc.load = .ok d → d.InRange) ∧
    ∀ diffs : List (String × Diff), (∀ x ∈ diffs, ∃ doc : Document, doc.load = .ok x.2) →
      (detectMany diffs passes).failures = [] := by
  refine ⟨fun path d hd => ?_, fun doc d h => (Document.numbered_of_load h).inRange, ?_⟩
  · obtain ⟨found, h⟩ := exists_detect hd path passes
    exact ⟨found, h, tryDetect_eq_ok.2 h⟩
  · intro diffs hdiffs
    refine Report.failures_merge fun x hx => ?_
    obtain ⟨⟨path, d⟩, hmem, rfl⟩ := List.mem_map.1 hx
    obtain ⟨doc, hdoc⟩ := hdiffs _ hmem
    obtain ⟨found, h⟩ := exists_detect (Document.numbered_of_load hdoc).inRange path passes
    exact ⟨found, tryDetect_eq_ok.2 h⟩

/-- A class whose only method is renamed from `f` to `g`. -/
def renamedMethod : Document :=
  let tree (text name : String) : TreeDocument :=
    ⟨text, .node .compilationUnit "" 0 23 [.node .typeDeclaration "" 0 23
      [.node .simpleName "A" 6 1 [], .node .methodDeclaration "" 10 11
        [.node .primitiveType "void" 10 4 [], .node .simpleName name 15 1 [],
          .node .block "" 19 2 []]]]⟩
  { path := "A.java"
    before := tree "class A { void f() {} }" "f"
    after := tree "class A { void g() {} }" "g"
    mapping := (List.range 7).map fun i => (i, i)
    script := [.update 5 "g"] }

theorem detect_renamedMethod :
    ∃ d, renamedMethod.load = .ok d ∧ d.InRange ∧
      (∃ found, detect "A.java" d {} = .ok found ∧ tryDetect "A.java" d {} = .ok found) ∧
      (detectMany [("A.java", d), ("B.java", d)] {}).failures = [] := by
  obtain ⟨d, hd⟩ := exists_of_isOk (x := renamedMethod.load) (by decide +kernel)
  obtain ⟨hdetect, hrange, hmany⟩ := detect_total {}
  refine ⟨d, hd, hrange _ d hd, hdetect "A.java" d (hrange _ d hd), hmany _ fun x hx => ?_⟩
  have hx : x = ("A.java", d) ∨ x = ("B.java", d) := by simpa using hx
  rcases hx with rfl | rfl
  · exact ⟨_, hd⟩
  · exact ⟨_, hd⟩

end Recast
