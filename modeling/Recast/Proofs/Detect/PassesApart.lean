import Recast.Proofs.Detect.Batch
import Recast.Proofs.Detect.Trace

/-!
# The passes do not get in each other's way

Records are told apart by their descriptions alone, and a description is put together from names and
texts that can be anything. Its first words cannot: they are the name of the kind, followed by a
blank, and no such beginning is the beginning of another.

* `RefactoringKind.ofDescription?`: the kind that a description begins with;
* `ofDescription?_make`: **a description tells the kind it was made for**;
* `detect_tells`: every record of detection has such a description, and its pass was asked for;
* `detect_both`, `find?_detectMany_both`: what both passes find is what one or the other finds;
* `passes_apart`: **a batch with both passes is the disjoint union of one with each.**
-/

namespace Recast

/-! ## 1. Kinds and descriptions -/

namespace RefactoringKind

/-- What a description of a kind begins with. -/
def lead (k : RefactoringKind) : List Char := k.name.toList ++ [' ']

/-- The kind that a description begins with. -/
def ofDescription? (x : String) : Option RefactoringKind :=
  all.find? fun k => k.lead.isPrefixOf x.toList

theorem mem_all (k : RefactoringKind) : k ∈ all := by cases k <;> decide

/-- No beginning is the beginning of another. -/
theorem eq_of_lead_isPrefix {k k' : RefactoringKind} (h : k.lead <+: k'.lead) : k = k' := by
  have hall : ∀ k ∈ all, ∀ k' ∈ all, k.lead.isPrefixOf k'.lead = true → k = k' := by decide +kernel
  exact hall k k.mem_all k' k'.mem_all (List.isPrefixOf_iff_prefix.2 h)

/-- **A description tells the kind it was made for**, whatever its details. -/
theorem ofDescription?_make (k : RefactoringKind) (details : String) (before after : CodeRange) :
    ofDescription? (Refactoring.make k details before after).description = some k := by
  have hlead : k.lead <+: (Refactoring.make k details before after).description.toList := by
    show k.lead <+: (k.name ++ " " ++ details).toList
    rw [String.toList_append, String.toList_append]
    exact List.prefix_append _ _
  unfold ofDescription?
  cases hfind : all.find? fun k' =>
      k'.lead.isPrefixOf (Refactoring.make k details before after).description.toList with
  | none =>
    exact absurd (List.isPrefixOf_iff_prefix.2 hlead) (List.find?_eq_none.1 hfind k k.mem_all)
  | some k' =>
    -- of two beginnings of one text the shorter is the beginning of the longer
    have hfound := List.find?_some hfind
    have hlead' := List.isPrefixOf_iff_prefix.1 hfound
    rcases Nat.le_total k.lead.length k'.lead.length with hle | hle
    · rw [eq_of_lead_isPrefix (List.prefix_of_prefix_length_le hlead hlead' hle)]
    · rw [eq_of_lead_isPrefix (List.prefix_of_prefix_length_le hlead' hlead hle)]

end RefactoringKind

/-- The description of a record tells its kind. -/
def Refactoring.Tells (r : Refactoring) : Prop :=
  RefactoringKind.ofDescription? r.description = some r.kind

theorem Refactoring.Tells.kind_eq {r r' : Refactoring} (h : r.Tells) (h' : r'.Tells)
    (he : r.description = r'.description) : r.kind = r'.kind := by
  rw [Tells, he] at h
  exact Option.some.inj (h.symm.trans h')

theorem Diff.Candidate.Reports.tells {d : Diff} {c : Candidate d} {kind : RefactoringKind}
    {r : Refactoring} (h : c.Reports kind (.ok r)) : r.Tells := by
  obtain ⟨_, _, _, _, _, _, he⟩ := h.exists_record
  cases he
  exact RefactoringKind.ofDescription?_make ..

/-! ## 2. One difference -/

namespace Diff

variable {d : Diff} {path : String} {r : Refactoring}

theorem tells_of_mem_renames {rs : List Refactoring} (h : d.renames path = .ok rs) (hr : r ∈ rs) :
    r.Tells := by
  obtain ⟨xs, -, h⟩ := bind_eq_ok.1 h
  obtain ⟨⟨i, size⟩, -, hclass⟩ := (mem_gather h).1 hr
  obtain ⟨j, src, dst, -, -, -, hrename⟩ := classifyRename_eq_some hclass
  obtain ⟨kind, -, -, hreport⟩ := Candidate.rename?_cases hrename
  exact hreport.tells

theorem tells_of_mem_typeChanges {ts : List Refactoring} (h : d.typeChanges path = .ok ts)
    (hr : r ∈ ts) : r.Tells := by
  obtain ⟨xs, -, h⟩ := bind_eq_ok.1 h
  obtain ⟨⟨c, size⟩, -, hclass⟩ := (mem_gather h).1 hr
  obtain ⟨j, src, dst, -, -, -, -, hchange⟩ := classifyTypeChange_eq_some.1 hclass
  obtain ⟨kind, -, hreport⟩ := Candidate.typeChange?_cases hchange
  exact hreport.tells

end Diff

variable {path : String} {d : Diff} {passes : Passes} {xs : List (String × Diff)}

/-- **Every record tells its kind**, and comes from a pass that was asked for. -/
theorem detect_tells {found : Refactorings} (h : detect path d passes = .ok found)
    {r : Refactoring} (hr : r ∈ found.records) :
    r.Tells ∧ (if r.kind.isRename then passes.renames else passes.typeChanges) = true := by
  obtain ⟨rs, ts, hrs, hts, rfl⟩ := detect_eq_ok.1 h
  rcases Refactorings.mem_of_mem_extend hr with hr | hr
  · have hr := Refactorings.mem_of_mem_ofList hr
    split at hrs
    · rename_i hpass
      obtain ⟨_, _, _, _, hkind, _⟩ := Diff.traced_of_mem_renames hrs hr
      rw [hkind]
      exact ⟨Diff.tells_of_mem_renames hrs hr, hpass⟩
    · cases hrs
      cases hr
  · split at hts
    · rename_i hpass
      obtain ⟨_, _, _, _, hkind, _⟩ := Diff.traced_of_mem_typeChanges hts hr
      rw [hkind]
      exact ⟨Diff.tells_of_mem_typeChanges hts hr, hpass⟩
    · cases hts
      cases hr

/-- Where both passes have an answer, fewer passes have one too. -/
theorem exists_detect_of_both {found : Refactorings}
    (h : detect path d ⟨true, true⟩ = .ok found) (passes : Passes) :
    ∃ found, detect path d passes = .ok found := by
  obtain ⟨rs, ts, hrs, hts, -⟩ := detect_eq_ok.1 h
  refine ⟨_, detect_eq_ok.2 ⟨if passes.renames then rs else [],
    if passes.typeChanges then ts else [], ?_, ?_, rfl⟩⟩
  · split
    · exact hrs
    · rfl
  · split
    · exact hts
    · rfl

/-- Where both passes have an answer, those of each alone make it up. -/
theorem detect_both {found : Refactorings} (h : detect path d ⟨true, true⟩ = .ok found) :
    ∃ renames changes, detect path d ⟨true, false⟩ = .ok renames ∧
      detect path d ⟨false, true⟩ = .ok changes ∧
      ∀ x, found.find? x = (renames.find? x).or (changes.find? x) := by
  obtain ⟨rs, ts, hrs, hts, rfl⟩ := detect_eq_ok.1 h
  have hrenames : detect path d ⟨true, false⟩ = .ok ((Refactorings.ofList rs).extend []) :=
    detect_eq_ok.2 ⟨rs, [], hrs, rfl, rfl⟩
  have hchanges : detect path d ⟨false, true⟩ = .ok ((Refactorings.ofList []).extend ts) :=
    detect_eq_ok.2 ⟨[], ts, rfl, hts, rfl⟩
  refine ⟨_, _, hrenames, hchanges, fun x => ?_⟩
  rw [Refactorings.find?_extend]
  congr 1
  exact (Refactorings.find?_extend .empty ts x).symm

/-! ## 3. A batch -/

/-- The same for every record of a batch. -/
theorem detectMany_tells {r : Refactoring}
    (hr : r ∈ (detectMany xs passes).refactorings.records) :
    r.Tells ∧ (if r.kind.isRename then passes.renames else passes.typeChanges) = true := by
  obtain ⟨_, pair, _, _, ⟨found, hfound, hfind⟩, _⟩ :=
    find?_detectMany.1 (Refactorings.find?_eq_some_iff.2 ⟨hr, rfl⟩)
  exact detect_tells hfound (Refactorings.find?_eq_some_iff.1 hfind).1

theorem isRename_of_mem {r : Refactoring}
    (hr : r ∈ (detectMany xs ⟨true, false⟩).refactorings.records) : r.kind.isRename = true := by
  have hpass := (detectMany_tells hr).2
  cases hkind : r.kind.isRename with
  | true => rfl
  | false =>
    rw [hkind] at hpass
    cases hpass

theorem not_isRename_of_mem {r : Refactoring}
    (hr : r ∈ (detectMany xs ⟨false, true⟩).refactorings.records) : r.kind.isRename = false := by
  have hpass := (detectMany_tells hr).2
  cases hkind : r.kind.isRename with
  | true =>
    rw [hkind] at hpass
    cases hpass
  | false => rfl

/-- No rename has the description of a type change, wherever the two are found. -/
theorem description_ne {ys : List (String × Diff)} {r r' : Refactoring}
    (hr : r ∈ (detectMany xs ⟨true, false⟩).refactorings.records)
    (hr' : r' ∈ (detectMany ys ⟨false, true⟩).refactorings.records) :
    r.description ≠ r'.description := by
  intro he
  have hkind := (detectMany_tells hr).1.kind_eq (detectMany_tells hr').1 he
  have hrename := isRename_of_mem hr
  rw [hkind, not_isRename_of_mem hr'] at hrename
  cases hrename

theorem find?_detectMany_cons (pair : String × Diff) (xs : List (String × Diff)) (passes : Passes)
    (x : String) :
    (detectMany (pair :: xs) passes).refactorings.find? x =
      ((detectMany [pair] passes).refactorings.find? x).or
        ((detectMany xs passes).refactorings.find? x) := by
  simp only [find?_detectMany_eq, List.findSome?_cons, List.findSome?_nil]
  cases (reportOf passes pair).refactorings.find? x with
  | none => rfl
  | some r => rfl

theorem find?_detectMany_singleton {pair : String × Diff} {found : Refactorings}
    (h : detect pair.1 pair.2 passes = .ok found) (x : String) :
    (detectMany [pair] passes).refactorings.find? x = found.find? x := by
  have hreport : reportOf passes pair = ⟨found, []⟩ := by
    rw [reportOf, tryDetect, h]
    rfl
  rw [find?_detectMany_eq, List.findSome?_cons, hreport, List.findSome?_nil]
  cases found.find? x with
  | none => rfl
  | some r => rfl

/-- **What both passes find in a batch is what one or the other finds.** -/
theorem find?_detectMany_both
    (h : ∀ pair ∈ xs, ∃ found, detect pair.1 pair.2 ⟨true, true⟩ = .ok found) (x : String) :
    (detectMany xs ⟨true, true⟩).refactorings.find? x =
      ((detectMany xs ⟨true, false⟩).refactorings.find? x).or
        ((detectMany xs ⟨false, true⟩).refactorings.find? x) := by
  induction xs with
  | nil => rfl
  | cons pair xs ih =>
    obtain ⟨⟨found, hfound⟩, hxs⟩ := List.forall_mem_cons.1 h
    obtain ⟨renames, changes, hrenames, hchanges, hfind⟩ := detect_both hfound
    simp only [find?_detectMany_cons pair xs, ih hxs, find?_detectMany_singleton hfound, hfind,
      find?_detectMany_singleton hrenames, find?_detectMany_singleton hchanges]
    cases hchange : changes.find? x with
    | none => rw [Option.or_none, Option.none_or, Option.or_assoc]
    | some r' =>
      -- a type change in this pair leaves no room for a rename in the others
      have hnone : (detectMany xs ⟨true, false⟩).refactorings.find? x = none := by
        refine Option.eq_none_iff_forall_ne_some.2 fun r hr => ?_
        rw [← find?_detectMany_singleton hchanges, Refactorings.find?_eq_some_iff] at hchange
        rw [Refactorings.find?_eq_some_iff] at hr
        exact description_ne hr.1 hchange.1 (hr.2.trans hchange.2.symm)
      rw [hnone, Option.none_or, Option.or_none, Option.or_assoc]

/-- Of what both passes find, each finds the records of its own kinds. -/
theorem mem_detectMany_both
    (h : ∀ pair ∈ xs, ∃ found, detect pair.1 pair.2 ⟨true, true⟩ = .ok found) {r : Refactoring} :
    r ∈ (detectMany xs ⟨true, true⟩).refactorings.records ↔
      r ∈ (detectMany xs ⟨true, false⟩).refactorings.records ∨
        r ∈ (detectMany xs ⟨false, true⟩).refactorings.records := by
  have hmem (s : Refactorings) : r ∈ s.records ↔ s.find? r.description = some r := by
    rw [Refactorings.find?_eq_some_iff, and_iff_left rfl]
  rw [hmem, hmem, hmem, find?_detectMany_both h]
  constructor
  · intro hr
    rcases Option.or_eq_some_iff.1 hr with hr | ⟨-, hr⟩
    · exact .inl hr
    · exact .inr hr
  · rintro (hr | hr)
    · rw [hr, Option.some_or]
    · cases hrename : (detectMany xs ⟨true, false⟩).refactorings.find? r.description with
      | none => rw [Option.none_or, hr]
      | some r' =>
        obtain ⟨hr', he⟩ := Refactorings.find?_eq_some_iff.1 hrename
        exact absurd he (description_ne hr' ((hmem _).2 hr))

/-- **The passes do not get in each other's way.** In a batch without a fault, what both passes find
    is, record for record, what one of them finds together with what the other finds, and these have
    no description in common; without a pass nothing is found. The reason is that every record of
    every batch tells its kind by its description. -/
theorem passes_apart (xs : List (String × Diff))
    (h : ∀ pair ∈ xs, ∃ found, detect pair.1 pair.2 ⟨true, true⟩ = .ok found) :
    let both := detectMany xs ⟨true, true⟩
    let renames := detectMany xs ⟨true, false⟩
    let changes := detectMany xs ⟨false, true⟩
    let neither := detectMany xs ⟨false, false⟩
    both.refactorings.records.Perm
      (renames.refactorings.records ++ changes.refactorings.records) ∧
    renames.refactorings.descriptions.Disjoint changes.refactorings.descriptions ∧
    renames.refactorings.records = both.refactorings.records.filter (·.kind.isRename) ∧
    changes.refactorings.records = both.refactorings.records.filter (!·.kind.isRename) ∧
    neither.refactorings.records = [] ∧
    (∀ passes, (detectMany xs passes).failures = []) ∧
    ∀ ys passes, ∀ r ∈ (detectMany ys passes).refactorings.records,
      RefactoringKind.ofDescription? r.description = some r.kind := by
  intro both renames changes neither
  have hrenames : renames.refactorings.records =
      both.refactorings.records.filter (·.kind.isRename) := by
    refine eq_of_mem_iff_of_sorted renames.refactorings.ordered
      (both.refactorings.ordered.sublist List.filter_sublist) fun r => ?_
    rw [List.mem_filter, mem_detectMany_both h]
    constructor
    · exact fun hr => ⟨.inl hr, isRename_of_mem hr⟩
    · rintro ⟨hr | hr, hkind⟩
      · exact hr
      · rw [not_isRename_of_mem hr] at hkind
        cases hkind
  have hchanges : changes.refactorings.records =
      both.refactorings.records.filter (!·.kind.isRename) := by
    refine eq_of_mem_iff_of_sorted changes.refactorings.ordered
      (both.refactorings.ordered.sublist List.filter_sublist) fun r => ?_
    rw [List.mem_filter, mem_detectMany_both h, Bool.not_eq_true']
    constructor
    · exact fun hr => ⟨.inr hr, not_isRename_of_mem hr⟩
    · rintro ⟨hr | hr, hkind⟩
      · rw [isRename_of_mem hr] at hkind
        cases hkind
      · exact hr
  refine ⟨?_, ?_, hrenames, hchanges, ?_, fun passes => ?_, fun ys passes r hr => ?_⟩
  · rw [hrenames, hchanges]
    exact (List.filter_append_perm _ _).symm
  · intro x hx hx'
    obtain ⟨r, hr, rfl⟩ := List.mem_map.1 hx
    obtain ⟨r', hr', he⟩ := List.mem_map.1 hx'
    exact description_ne hr hr' he.symm
  · refine List.eq_nil_iff_forall_not_mem.2 fun r hr => ?_
    have hpass := (detectMany_tells hr).2
    rw [ite_self] at hpass
    cases hpass
  · rw [failures_detectMany, List.filterMap_eq_nil_iff]
    intro pair hpair
    obtain ⟨both, hboth⟩ := h pair hpair
    obtain ⟨found, hfound⟩ := exists_detect_of_both hboth passes
    rw [fault?, hfound]
  · exact (detectMany_tells hr).1

/-- A method with another name and another return type. -/
def renamedAndRetyped : Diff :=
  let tree (text type name : String) : TreeDocument :=
    ⟨text, .node .compilationUnit "" 0 23 [.node .typeDeclaration "" 0 23
      [.node .simpleName "A" 6 1 [], .node .methodDeclaration "" 10 11
        [.node .primitiveType type 10 4 [], .node .simpleName name 15 1 [],
          .node .block "" 19 2 []]]]⟩
  { before := (tree "class A \x7b void f() \x7b\x7d \x7d" "void" "f").load.toOption.get
      (by decide +kernel)
    after := (tree "class A \x7b long h() \x7b\x7d \x7d" "long" "h").load.toOption.get
      (by decide +kernel)
    mapping := .diagonal 7
    script := [.update 4 "long", .update 5 "h"] }

theorem passes_apart_renamedAndRetyped :
    let xs := [("A.java", renamedAndRetyped)]
    let both := detectMany xs ⟨true, true⟩
    let renames := detectMany xs ⟨true, false⟩
    let changes := detectMany xs ⟨false, true⟩
    (∀ pair ∈ xs, ∃ found, detect pair.1 pair.2 ⟨true, true⟩ = .ok found) ∧
      both.refactorings.records.Perm
        (renames.refactorings.records ++ changes.refactorings.records) ∧
      renames.refactorings.descriptions.Disjoint changes.refactorings.descriptions ∧
      renames.refactorings.records.map (·.kind) = [.renameMethod] ∧
      changes.refactorings.records.map (·.kind) = [.changeReturnType] := by
  intro xs both renames changes
  have hrange : renamedAndRetyped.InRange :=
    Diff.Numbered.inRange ⟨by decide +kernel, by decide +kernel⟩
  have h : ∀ pair ∈ xs, ∃ found, detect pair.1 pair.2 ⟨true, true⟩ = .ok found := by
    intro pair hpair
    obtain rfl := List.mem_singleton.1 hpair
    exact exists_detect hrange "A.java" ⟨true, true⟩
  obtain ⟨hperm, hdisjoint, -⟩ := passes_apart xs h
  exact ⟨h, hperm, hdisjoint, by decide +kernel, by decide +kernel⟩

end Recast
