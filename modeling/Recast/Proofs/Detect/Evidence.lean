import Mathlib.Data.List.Perm.Subperm
import Recast.Proofs.Classify.Group
import Recast.Proofs.Detect.RoundTrip
import Recast.Proofs.Detect.Total
import Recast.Proofs.Refactoring.Set

/-!
# More evidence, more findings

The evidence in a difference is its pairs, and its updates and moves, each as often as it occurs.
Nothing that is added to the evidence takes a finding away: groups only grow, a pair that is there
stays, and a pair of generic types speaks for itself. So the order of the script does not matter,
nor do its insertions and deletions.

* `Diff.Within`: the evidence of one difference is part of that of another with the same trees;
* `renameCandidates_within`, `typeCandidates_within`: more evidence gives more candidates;
* `rename?_mono`, `classifyRename_within`, `classifyTypeChange_within`: no candidate is answered
  otherwise when there is more evidence;
* `detect_within`: **whatever is detected from less evidence is detected from more.**
-/

namespace Recast

/-! ## 1. Evidence -/

/-- Whether an edit is evidence: updates and moves are. -/
def Edit.isEvidence : Edit → Bool
  | .update _ _ | .move _ => true
  | .insert _ | .delete _ => false

/-- What is gathered from fewer elements, in another order, is part of what more elements give. -/
theorem gather_subperm {α β : Type} {f : α → Except Fault (Option β)} {as as' : List α}
    (hs : as.Subperm as') {bs' : List β} (h : gather f as' = .ok bs') :
    ∃ bs, gather f as = .ok bs ∧ bs.Subperm bs' := by
  obtain ⟨mid, hperm, hsub⟩ := hs
  obtain ⟨cs, hcs, hcsub⟩ := gather_sublist hsub h
  obtain ⟨bs, hbs, hbperm⟩ := gather_perm hperm hcs
  exact ⟨bs, hbs, cs, hbperm, hcsub⟩

namespace Diff

variable {before after : Tree} {m m' : Correspondence} {s s' : List Edit}

/-- The evidence of the first pairs and script is part of that of the second. -/
structure Within (m : Correspondence) (s : List Edit) (m' : Correspondence) (s' : List Edit) :
    Prop where
  pairs : ∀ p ∈ m.pairs, p ∈ m'.pairs
  edits : (s.filter Edit.isEvidence).Subperm (s'.filter Edit.isEvidence)

theorem Within.dst? (h : Within m s m' s') {i j : Nat} (hj : m.dst? i = some j) :
    m'.dst? i = some j :=
  Correspondence.dst?_eq_some_iff.2 (h.pairs _ (Correspondence.dst?_eq_some_iff.1 hj))

/-! ## 2. Candidates -/

theorem renameCandidate?_of_not_isEvidence (d : Diff) (e : Edit) (h : e.isEvidence = false) :
    d.renameCandidate? e = .ok none := by
  cases e with
  | insert n => rfl
  | delete n => rfl
  | update n label => cases h
  | move n => cases h

theorem typeCandidate?_of_not_isEvidence (d : Diff) (e : Edit) (h : e.isEvidence = false) :
    d.typeCandidate? e = .ok none := by
  cases e with
  | insert n => rfl
  | delete n => rfl
  | update n label => cases h
  | move n => cases h

/-- What a pair gives depends on the trees only. -/
theorem genericCandidate?_of_trees (p : Nat × Nat) :
    genericCandidate? ⟨before, after, m', s'⟩ p = genericCandidate? ⟨before, after, m, s⟩ p := by
  unfold genericCandidate?
  cases before.resolve p.1 <;> rfl

/-- More evidence gives more candidates for renames. -/
theorem renameCandidates_within (h : Within m s m' s') {xs' : List (String × before.Id)}
    (hxs' : renameCandidates ⟨before, after, m', s'⟩ = .ok xs') :
    ∃ xs, renameCandidates ⟨before, after, m, s⟩ = .ok xs ∧ xs.Subperm xs' := by
  let d : Diff := ⟨before, after, m, s⟩
  have hgather (script : List Edit) :
      gather d.renameCandidate? (script.filter Edit.isEvidence) =
        gather d.renameCandidate? script :=
    gather_filter d.renameCandidate?_of_not_isEvidence script
  obtain ⟨xs, hxs, hsub⟩ := gather_subperm h.edits ((hgather s').trans hxs')
  exact ⟨xs, (hgather s).symm.trans hxs, hsub⟩

/-- More evidence gives more candidates for type changes. -/
theorem typeCandidates_within (h : Within m s m' s')
    {xs xs' : List (String × TypeCandidate before)}
    (hxs : typeCandidates ⟨before, after, m, s⟩ = .ok xs)
    (hxs' : typeCandidates ⟨before, after, m', s'⟩ = .ok xs') : xs ⊆ xs' := by
  let d : Diff := ⟨before, after, m, s⟩
  have hgather (script : List Edit) :
      gather d.typeCandidate? (script.filter Edit.isEvidence) = gather d.typeCandidate? script :=
    gather_filter d.typeCandidate?_of_not_isEvidence script
  obtain ⟨edited, hedited, hxs⟩ := bind_eq_ok.1 hxs
  obtain ⟨generic, hgeneric, hxs⟩ := bind_eq_ok.1 hxs
  obtain ⟨edited', hedited', hxs'⟩ := bind_eq_ok.1 hxs'
  obtain ⟨generic', hgeneric', hxs'⟩ := bind_eq_ok.1 hxs'
  cases hxs
  cases hxs'
  intro x hx
  rcases List.mem_append.1 hx with hx | hx
  · obtain ⟨ys, hys, hsub⟩ := gather_subperm h.edits ((hgather s').trans hedited')
    rw [hgather, show gather d.typeCandidate? s = .ok edited from hedited] at hys
    cases hys
    exact List.mem_append_left _ (hsub.subset hx)
  · obtain ⟨p, hp, hfound⟩ := (mem_gather hgeneric).1 hx
    refine List.mem_append_right _ ((mem_gather hgeneric').2 ⟨p, h.pairs p hp, ?_⟩)
    rw [← hfound]
    exact genericCandidate?_of_trees p

/-! ## 3. Answers -/

/-- A larger group answers whatever a smaller one does. -/
theorem Candidate.rename?_mono {d : Diff} {c : Candidate d} {n n' : Nat} (hn : n ≤ n')
    {x : Except Fault Refactoring} (h : c.rename? n = some x) : c.rename? n' = some x := by
  -- the rows that look at the size ask for more than one, and nothing else depends on it
  have hgroup {o : Option (Except Fault Refactoring)} (ho : (if 1 < n then o else none) = some x) :
      (if 1 < n' then o else none) = some x := by
    split at ho
    · rw [if_pos (by omega), ho]
    · cases ho
  revert h
  unfold rename?
  split
  · exact id
  · exact id
  · exact hgroup
  · rename_i statement _ _ _
    cases statement.isVariableDeclaration with
    | false => exact id
    | true =>
      simp only [Bool.true_and, decide_eq_true_eq]
      exact hgroup
  · exact hgroup
  · exact id

theorem classifyRename_within (h : Within m s m' s') {path : String} {i : before.Id} {n n' : Nat}
    (hn : n ≤ n') {r : Refactoring}
    (hr : classifyRename ⟨before, after, m, s⟩ path i n = .ok (some r)) :
    classifyRename ⟨before, after, m', s'⟩ path i n' = .ok (some r) := by
  obtain ⟨j, src, dst, hsrc, hj, hdst, hrename⟩ := classifyRename_eq_some hr
  have hgrown := Candidate.rename?_mono hn hrename
  rw [classifyRename_of_anchors (d := ⟨before, after, m', s'⟩) path hsrc (h.dst? hj) hdst]
  exact attempt_eq_some.2 hgrown

theorem classifyTypeChange_within (h : Within m s m' s') {path : String}
    {c : TypeCandidate before} {r : Refactoring}
    (hr : classifyTypeChange ⟨before, after, m, s⟩ path c = .ok (some r)) :
    classifyTypeChange ⟨before, after, m', s'⟩ path c = .ok (some r) := by
  obtain ⟨j, src, dst, hsrc, hj, hdst, hmoved, hchange⟩ := classifyTypeChange_eq_some.1 hr
  exact classifyTypeChange_eq_some.2 ⟨j, src, dst, hsrc, h.dst? hj, hdst, hmoved, hchange⟩

/-! ## 4. Passes -/

theorem renames_within (h : Within m s m' s') {path : String} {rs rs' : List Refactoring}
    (hrs : renames ⟨before, after, m, s⟩ path = .ok rs)
    (hrs' : renames ⟨before, after, m', s'⟩ path = .ok rs') : rs ⊆ rs' := by
  obtain ⟨xs, hxs, hrs⟩ := bind_eq_ok.1 hrs
  obtain ⟨xs', hxs', hrs'⟩ := bind_eq_ok.1 hrs'
  obtain ⟨ys, hys, hsub⟩ := renameCandidates_within h hxs'
  obtain rfl : ys = xs := Except.ok.inj (hys.symm.trans hxs)
  intro r hr
  obtain ⟨⟨i, n⟩, hmem, hfound⟩ := (mem_gather hrs).1 hr
  obtain ⟨key, hkey, rfl⟩ := mem_sized_iff.1 hmem
  have hsize : (withKey key ys).length ≤ (withKey key xs').length := by
    unfold withKey
    rw [List.length_map, List.length_map]
    exact (hsub.filter _).length_le
  refine (mem_gather hrs').2 ⟨(i, (withKey key xs').length), ?_, ?_⟩
  · exact mem_sized_iff.2 ⟨key, hsub.subset hkey, rfl⟩
  · exact classifyRename_within h hsize hfound

theorem typeChanges_within (h : Within m s m' s') {path : String} {ts ts' : List Refactoring}
    (hts : typeChanges ⟨before, after, m, s⟩ path = .ok ts)
    (hts' : typeChanges ⟨before, after, m', s'⟩ path = .ok ts') : ts ⊆ ts' := by
  obtain ⟨xs, hxs, hts⟩ := bind_eq_ok.1 hts
  obtain ⟨xs', hxs', hts'⟩ := bind_eq_ok.1 hts'
  have hsub := typeCandidates_within h hxs hxs'
  intro r hr
  obtain ⟨⟨c, n⟩, hmem, hfound⟩ := (mem_gather hts).1 hr
  obtain ⟨key, hkey, -⟩ := mem_sized_iff.1 hmem
  refine (mem_gather hts').2 ⟨(c, (withKey key xs').length), ?_, ?_⟩
  · exact mem_sized_iff.2 ⟨key, hsub hkey, rfl⟩
  · exact classifyTypeChange_within h hfound

/-- The passes that run find no less in more evidence. -/
theorem descriptions_within (h : Within m s m' s') {path : String} {passes : Passes}
    {found found' : Refactorings} (hf : detect path ⟨before, after, m, s⟩ passes = .ok found)
    (hf' : detect path ⟨before, after, m', s'⟩ passes = .ok found') :
    found.descriptions ⊆ found'.descriptions := by
  obtain ⟨rs, ts, hrs, hts, rfl⟩ := detect_eq_ok.1 hf
  obtain ⟨rs', ts', hrs', hts', rfl⟩ := detect_eq_ok.1 hf'
  have hrenames : rs ⊆ rs' := by
    split at hrs
    · rw [if_pos ‹_›] at hrs'
      exact renames_within h hrs hrs'
    · cases hrs
      exact List.nil_subset _
  have htypes : ts ⊆ ts' := by
    split at hts
    · rw [if_pos ‹_›] at hts'
      exact typeChanges_within h hts hts'
    · cases hts
      exact List.nil_subset _
  intro x hx
  rw [Refactorings.mem_descriptions_extend, Refactorings.mem_descriptions_ofList] at hx ⊢
  rcases hx with hx | hx
  · exact .inl (List.map_subset _ hrenames hx)
  · exact .inr (List.map_subset _ htypes hx)

end Diff

/-! ## 5. Detection -/

/-- **Whatever is detected from less evidence is detected from more**: from a part of the pairs and
    from a part of the updates and moves, each at most as often. So equal evidence gives equal
    descriptions, in whatever order the script has it and whatever it inserts and deletes. -/
theorem detect_within (before after : Tree) (m m' : Correspondence) (s s' : List Edit)
    (hd : Diff.InRange ⟨before, after, m, s⟩) (hd' : Diff.InRange ⟨before, after, m', s'⟩)
    (path : String) (passes : Passes) :
    ∃ found found', detect path ⟨before, after, m, s⟩ passes = .ok found ∧
      detect path ⟨before, after, m', s'⟩ passes = .ok found' ∧
      ((∀ p ∈ m.pairs, p ∈ m'.pairs) →
        (s.filter Edit.isEvidence).Subperm (s'.filter Edit.isEvidence) →
        found.descriptions ⊆ found'.descriptions) ∧
      (m = m' → (s.filter Edit.isEvidence).Perm (s'.filter Edit.isEvidence) →
        found.descriptions = found'.descriptions) := by
  obtain ⟨found, hf⟩ := exists_detect hd path passes
  obtain ⟨found', hf'⟩ := exists_detect hd' path passes
  refine ⟨found, found', hf, hf', fun hpairs hedits => ?_, fun hm hedits => ?_⟩
  · exact Diff.descriptions_within ⟨hpairs, hedits⟩ hf hf'
  · subst hm
    refine Refactorings.descriptions_eq fun x => ⟨fun hx => ?_, fun hx => ?_⟩
    · exact Diff.descriptions_within ⟨fun _ hp => hp, hedits.subperm⟩ hf hf' hx
    · exact Diff.descriptions_within ⟨fun _ hp => hp, hedits.symm.subperm⟩ hf' hf hx

/-- A class with two fields of generic types, the second of which was added first. -/
def twoFields (text argument : String) : Except TreeError Tree := do
  let a := Arena.ofText text .compilationUnit
  let a ← a.push 0 .typeDeclaration "" (.ofLength 0 27)
  let a ← a.push 1 .simpleName "A" (.ofLength 6 1)
  let a ← a.push 1 .fieldDeclaration "" (.ofLength 10 7)
  let a ← a.push 1 .fieldDeclaration "" (.ofLength 18 7)
  let a ← a.push 4 .parameterizedType "" (.ofLength 18 4)
  let a ← a.push 5 .simpleType "M" (.ofLength 18 1)
  let a ← a.push 5 .simpleType argument (.ofLength 20 1)
  let a ← a.push 4 .variableDeclarationFragment "" (.ofLength 23 1)
  let a ← a.push 8 .simpleName "b" (.ofLength 23 1)
  let a ← a.push 3 .parameterizedType "" (.ofLength 10 4)
  let a ← a.push 10 .simpleType "L" (.ofLength 10 1)
  let a ← a.push 10 .simpleType argument (.ofLength 12 1)
  let a ← a.push 3 .variableDeclarationFragment "" (.ofLength 15 1)
  let a ← a.push 13 .simpleName "a" (.ofLength 15 1)
  a.finish

/-- The type argument of both fields changes. -/
def changedArgument : Diff where
  before := (twoFields "class A \x7b L<X> a; M<X> b; \x7d" "X").toOption.get (by decide +kernel)
  after := (twoFields "class A \x7b L<Y> a; M<Y> b; \x7d" "Y").toOption.get (by decide +kernel)
  mapping := .diagonal 15
  script := [.update 7 "Y", .update 12 "Y"]

/-- The pairs of the nodes of `changedArgument` up to the changed argument of the second field. -/
def secondField : Correspondence := .diagonal 8

/-- The script of `changedArgument` in another order, with a deletion. -/
def reordered : List Edit := [.delete 3, .update 12 "Y", .update 7 "Y"]

theorem detect_within_changedArgument :
    let before := changedArgument.before
    let after := changedArgument.after
    ∃ found found' found'',
      detect "A.java" ⟨before, after, secondField, [.update 7 "Y"]⟩ {} = .ok found ∧
      detect "A.java" ⟨before, after, changedArgument.mapping, reordered⟩ {} = .ok found' ∧
      detect "A.java" changedArgument {} = .ok found'' ∧ found.descriptions ≠ [] ∧
      found.descriptions ⊆ found'.descriptions ∧ found'.descriptions = found''.descriptions := by
  intro before after
  have hd : Diff.Numbered ⟨before, after, secondField, [.update 7 "Y"]⟩ :=
    ⟨by decide +kernel, by decide +kernel⟩
  have hd' : Diff.Numbered ⟨before, after, changedArgument.mapping, reordered⟩ :=
    ⟨by decide +kernel, by decide +kernel⟩
  have hd'' : changedArgument.Numbered := ⟨by decide +kernel, by decide +kernel⟩
  obtain ⟨found, found', hf, hf', hmore, -⟩ :=
    detect_within before after _ _ _ _ hd.inRange hd'.inRange "A.java" {}
  obtain ⟨found₁, found'', hf₁, hf'', -, hsame⟩ :=
    detect_within before after _ _ _ _ hd'.inRange hd''.inRange "A.java" {}
  obtain rfl : found' = found₁ := Except.ok.inj (hf'.symm.trans hf₁)
  refine ⟨found, found', found'', hf, hf', hf'', ?_, hmore ?_ ?_, hsame rfl ?_⟩
  · have hone : (detect "A.java" ⟨before, after, secondField, [.update 7 "Y"]⟩ {}).toOption.map
        (·.descriptions.length) = some 1 := by decide +kernel
    rw [hf] at hone
    intro hnil
    simp [Except.toOption, hnil] at hone
  · decide +kernel
  · exact (List.sublist_cons_self _ _).subperm
  · exact .swap _ _ _

end Recast
